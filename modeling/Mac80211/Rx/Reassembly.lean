import Mac80211.Rx.FragmentSafety
import Mac80211.Tx.Fragment

/-!
# Fragments are put together again

The fragments that `ieee80211_tx_h_fragment` makes of a frame, in `ieee80211_rx_h_defragment` of a
receiver. The entry of our frame is found before anything older, as long as the ring has not been
walked round by the first fragments of others.

## Main results

* `fragments_round_trip`
-/

namespace Mac80211

open Machine List

/-! ### The handler as a machine -/

/-- A frame that gets to the handler. -/
structure DefragInput where
  jiffies : UInt64
  env : RxAlloc := {}
  rx : RxData

namespace DefragInput

/-- The header. -/
def hdr (e : DefragInput) : Hdr := e.rx.skb.hdr

/-- The frame is linear, or made so. -/
def linear (e : DefragInput) : Bool := e.rx.skb.linear || e.env.linearize

/-- The frame starts an entry: it is the first fragment of a new frame. -/
def isNew (e : DefragInput) : Bool :=
  !isCtl e.hdr.frameControl && !isMulticastEtherAddr e.hdr.addr1 && hasMorefrags e.hdr.frameControl &&
    e.linear && e.hdr.frag = 0

/-- `ieee80211_rx_h_defragment`. -/
def handle (hz : UInt64) (i : SdataId) (s : Local) (e : DefragInput) : Defragmented × Local :=
  rxHDefragment hz e.jiffies e.env s i e.rx (fragmentOf s i e.rx e.rx.skb e.rx.key)

end DefragInput

/-- The frame that was put together. -/
def Defragmented.completed : Defragmented → List RxSkb
  | .msdu skb _ => [skb]
  | _ => []

/-- One frame on interface `i`. The output is the frame it completes, if any. -/
def defragStep (hz : UInt64) (i : SdataId) (s : Local) (e : DefragInput) : Option (Local × List RxSkb) :=
  some ((e.handle hz i s).2, (e.handle hz i s).1.completed)

/-- The input is this fragment, there is memory for it, and it goes to the queue that
`ieee80211_parse_qos` says. -/
structure Carries (frag : TxSkb) (e : DefragInput) : Prop where
  hdr : e.hdr = frag.hdr
  queue : e.rx.seqnoIdx = (parseQos frag.hdr.frameControl frag.hdr.qosCtl).1
  linear : e.linear = true
  expandHead : e.env.expandHead = true

/-- The fragments in order: the first one, and each other one behind some frames of other senders. -/
structure Feeds (hz : UInt64) (frags : List TxSkb) (first : DefragInput)
    (later : List (List DefragInput × DefragInput)) : Prop where
  carries : List.Forall₂ Carries frags (first :: later.map Prod.snd)
  /-- Everything between them comes from other senders. -/
  others : ∀ gap ∈ later, ∀ e ∈ gap.1, e.hdr.addr2 ≠ first.hdr.addr2
  /-- They start fewer entries than there are. -/
  few : (later.flatMap Prod.fst).countP DefragInput.isNew < FRAGMENT_MAX
  inTime : ∀ gap ∈ later, timeAfter gap.2.jiffies (first.jiffies + 2 * hz) = false

/-- All inputs, one after the other. -/
def feedInputs (first : DefragInput) (later : List (List DefragInput × DefragInput)) :
    List DefragInput := first :: later.flatMap fun gap => gap.1 ++ [gap.2]

/-! ### The ring -/

/-- The ring of an interface: `fragments[IEEE80211_FRAGMENT_MAX]`, and an index. -/
structure RingWf (d : SubIfData) : Prop where
  length : d.fragments.length = FRAGMENT_MAX
  next : d.fragmentNext < FRAGMENT_MAX

/-- The index that is found in round `m` of the search that starts at `next`. -/
def ringBack (next m : ℕ) : ℕ := (next + FRAGMENT_MAX - 1 - m) % FRAGMENT_MAX

variable {idx : ℕ}

section Ring

theorem prevIdx_eq (h : idx < FRAGMENT_MAX) : prevIdx idx = ringBack idx 0 := by
  rw [prevIdx, ringBack, FRAGMENT_MAX] at *
  split <;> omega

theorem prevIdx_lt (h : idx < FRAGMENT_MAX) : prevIdx idx < FRAGMENT_MAX := by
  rw [prevIdx, FRAGMENT_MAX] at *
  split <;> omega

theorem ringBack_prevIdx {idx m : ℕ} (h : idx < FRAGMENT_MAX) (hm : m + 1 < FRAGMENT_MAX) :
    ringBack (prevIdx idx) m = ringBack idx (m + 1) := by
  rw [ringBack, ringBack, prevIdx, FRAGMENT_MAX] at *
  split <;> omega

theorem ringBack_lt (next m : ℕ) : ringBack next m < FRAGMENT_MAX := Nat.mod_lt _ (by decide)

theorem ringBack_inj {next m m' : ℕ} (hm : m < FRAGMENT_MAX) (hm' : m' < FRAGMENT_MAX)
    (h : ringBack next m = ringBack next m') : m = m' := by
  rw [ringBack, ringBack] at h
  rw [FRAGMENT_MAX] at *
  omega

variable {hz jiffies : UInt64} {frag seq queue : ℕ} {hdr : Hdr} {entries : List FragmentEntry}

theorem reassembleFind_newest {n m idx : ℕ} (hn : n ≤ FRAGMENT_MAX) (hm : m < n)
    (hidx : idx < FRAGMENT_MAX)
    (hbefore : ∀ m' < m, (entries.getD (ringBack idx m') {}).isMatch frag seq queue hdr = false)
    (hmatch : (entries.getD (ringBack idx m) {}).isMatch frag seq queue hdr = true)
    (hage : timeAfter jiffies ((entries.getD (ringBack idx m) {}).firstFragTime + 2 * hz) = false) :
    reassembleFind hz jiffies frag seq queue hdr n idx entries = (some (ringBack idx m), entries) := by
  induction n generalizing m idx with
  | zero => omega
  | succ n ih =>
    rw [reassembleFind]
    rcases m with _ | m
    · rw [← prevIdx_eq hidx] at hmatch hage ⊢
      simp only [hmatch, hage, if_true, Bool.false_eq_true, if_false]
    · have hfirst := hbefore 0 (Nat.succ_pos m)
      rw [← prevIdx_eq hidx] at hfirst
      have hback : ∀ m', m' ≤ m → ringBack (prevIdx idx) m' = ringBack idx (m' + 1) :=
        fun m' hle => ringBack_prevIdx hidx (by omega)
      rw [← hback m (Nat.le_refl m)] at hmatch hage ⊢
      simp only [hfirst, Bool.false_eq_true, if_false]
      refine ih (by omega) (by omega) (prevIdx_lt hidx) (fun m' hlt => ?_) hmatch hage
      rw [hback m' hlt.le]
      exact hbefore (m' + 1) (by omega)

theorem isMatch_of_nil {e : FragmentEntry} (h : e.skbList = []) : e.isMatch frag seq queue hdr = false := by
  rw [FragmentEntry.isMatch, h]

theorem lt_length_of_isMatch {x : ℕ} (h : (entries.getD x {}).isMatch frag seq queue hdr = true) :
    x < entries.length := by
  by_contra hle
  rw [getD_eq_default _ _ (Nat.le_of_not_lt hle), isMatch_of_nil rfl] at h
  cases h

theorem getD_set {x : ℕ} (hx : x < entries.length) (e : FragmentEntry) (y : ℕ) :
    (entries.set x e).getD y {} = if x = y then e else entries.getD y {} := by
  simp only [getD_eq_getElem?_getD, getElem?_set, hx]
  split
  · rfl
  · rfl

/-- The search changes an entry only if it matches, and then the entry is empty. -/
theorem reassembleFind_getD (n idx : ℕ) (entries : List FragmentEntry) (x : ℕ) :
    (reassembleFind hz jiffies frag seq queue hdr n idx entries).2.getD x {} = entries.getD x {} ∨
      (entries.getD x {}).isMatch frag seq queue hdr = true ∧
        ((reassembleFind hz jiffies frag seq queue hdr n idx entries).2.getD x {}).skbList = [] := by
  induction n generalizing idx entries with
  | zero => exact .inl rfl
  | succ n ih =>
    simp only [reassembleFind]
    split
    next hmatch =>
      split
      next =>
        have hpurge := getD_set (lt_length_of_isMatch hmatch) (entries.getD (prevIdx idx) {}).purge x
        have hrest := ih (prevIdx idx) (entries.set (prevIdx idx) (entries.getD (prevIdx idx) {}).purge)
        rw [hpurge] at hrest
        by_cases hx : prevIdx idx = x
        · rw [if_pos hx] at hrest
          subst hx
          refine .inr ⟨hmatch, ?_⟩
          rcases hrest with hsame | ⟨-, hnil⟩
          · rw [hsame]
            rfl
          · exact hnil
        · rw [if_neg hx] at hrest
          exact hrest
      next => exact .inl rfl
    next => exact ih (prevIdx idx) entries

theorem length_reassembleFind (n idx : ℕ) (entries : List FragmentEntry) :
    (reassembleFind hz jiffies frag seq queue hdr n idx entries).2.length = entries.length := by
  induction n generalizing idx entries with
  | zero => rfl
  | succ n ih =>
    simp only [reassembleFind]
    split
    · split
      · rw [ih, length_set]
      · rfl
    · exact ih _ _

end Ring

/-! ### One frame -/

namespace DefragInput

/-- The record of the frame. -/
def fragment (e : DefragInput) (s : Local) (i : SdataId) : Fragment :=
  fragmentOf s i e.rx e.rx.skb e.rx.key

/-- The search for an entry. -/
def find (e : DefragInput) (hz : UInt64) (s : Local) (i : SdataId) : Option ℕ × List FragmentEntry :=
  findEntry hz e.jiffies s i e.rx

end DefragInput

/-- What one frame does. -/
inductive Handled (hz : UInt64) (i : SdataId) (s : Local) (e : DefragInput) : Defragmented × Local → Prop
  /-- It is not a fragment, or there is no memory. -/
  | passed (out : Defragmented) : e.isNew = false → out.completed = [] →
      (isCtl e.hdr.frameControl = true ∨ isMulticastEtherAddr e.hdr.addr1 = true ∨
        e.hdr.frag = 0 ∨ e.linear = false) → Handled hz i s e (out, s)
  /-- It takes the next entry of the ring. -/
  | started : e.isNew = true → Handled hz i s e (.queued,
      s.updSdata i (reassembleAdd (firstEntry e.jiffies s i e.rx (e.fragment s i))))
  /-- There is no entry for it, or its packet number does not fit. -/
  | missed (out : Defragmented) : e.isNew = false → out.completed = [] →
      ((e.find hz s i).1 = none ∨
        ∃ idx, (e.find hz s i).1 = some idx ∧
          (((e.find hz s i).2.getD idx {}).pnFits s e.rx) = false) →
      Handled hz i s e (out, s.updSdata i fun d => d.setFragments (e.find hz s i).2)
  /-- It is kept. -/
  | joined (idx : ℕ) : e.isNew = false → (e.find hz s i).1 = some idx →
      hasMorefrags e.hdr.frameControl = true →
      Handled hz i s e (.queued, s.updSdata i fun d => d.setFragments
        ((e.find hz s i).2.set idx (((e.find hz s i).2.getD idx {}).push (e.fragment s i) e.hdr.frag)))
  /-- It is the last one. -/
  | ended (idx : ℕ) (skb : RxSkb) (out : Defragmented) : e.isNew = false →
      (e.find hz s i).1 = some idx → hasMorefrags e.hdr.frameControl = false →
      assemble (((e.find hz s i).2.getD idx {}).skbList ++ [e.fragment s i]) = some skb →
      out.completed = (if e.env.expandHead then [skb] else []) →
      Handled hz i s e (out, s.updSdata i fun d => d.setFragments
        ((e.find hz s i).2.set idx
          (((e.find hz s i).2.getD idx {}).push (e.fragment s i) e.hdr.frag).purge))

theorem exists_assemble (fs : List Fragment) (f : Fragment) : ∃ skb, assemble (fs ++ [f]) = some skb := by
  rcases fs with _ | ⟨g, fs⟩
  · exact ⟨_, rfl⟩
  · exact ⟨_, rfl⟩

theorem assemble_addr2 {g : Fragment} {fs : List Fragment} {skb : RxSkb}
    (h : assemble (g :: fs) = some skb) : skb.hdr.addr2 = g.skb.hdr.addr2 := by
  cases h
  rfl

theorem handle_handled (hz : UInt64) (i : SdataId) (s : Local) (e : DefragInput) :
    Handled hz i s e (e.handle hz i s) := by
  have hnew : e.isNew = (!isCtl e.rx.skb.hdr.frameControl && !isMulticastEtherAddr e.rx.skb.hdr.addr1 &&
      hasMorefrags e.rx.skb.hdr.frameControl && (e.rx.skb.linear || e.env.linearize) &&
      decide (e.rx.skb.hdr.frag = 0)) := rfl
  rw [DefragInput.handle, rxHDefragment]
  by_cases hwhole : (isCtl e.rx.skb.hdr.frameControl || isMulticastEtherAddr e.rx.skb.hdr.addr1) = true
  · rw [if_pos hwhole]
    refine .passed _ ?_ rfl ((Bool.or_eq_true _ _ ▸ hwhole).elim .inl (.inr ∘ .inl))
    rw [hnew]
    rcases hctl : isCtl e.rx.skb.hdr.frameControl
    · rw [hctl, Bool.false_or] at hwhole
      simp [hwhole]
    · rfl
  rw [if_neg hwhole]
  rw [Bool.not_eq_true, Bool.or_eq_false_iff] at hwhole
  simp only [hwhole.1, hwhole.2, Bool.not_false, Bool.true_and] at hnew
  by_cases hplain : (!hasMorefrags e.rx.skb.hdr.frameControl && decide (e.rx.skb.hdr.frag = 0)) = true
  · rw [if_pos hplain]
    rw [Bool.and_eq_true, Bool.not_eq_true', decide_eq_true_eq] at hplain
    refine .passed _ ?_ rfl (.inr (.inr (.inl hplain.2)))
    rw [hnew, hplain.1]
    rfl
  rw [if_neg hplain]
  rcases hlinear : e.rx.skb.linear || e.env.linearize
  · rw [if_pos (by rfl)]
    refine .passed _ ?_ rfl (.inr (.inr (.inr hlinear)))
    simp [hnew, hlinear]
  rw [if_neg (by simp)]
  by_cases hfrag : e.rx.skb.hdr.frag = 0
  · have hmore : hasMorefrags e.rx.skb.hdr.frameControl = true := by
      simpa [hfrag] using hplain
    rw [if_pos hfrag]
    refine .started ?_
    simp [hnew, hlinear, hmore, hfrag]
  have hold : e.isNew = false := by simp [hnew, hfrag]
  rw [if_neg hfrag]
  have hfind : findEntry hz e.jiffies s i e.rx = e.find hz s i := rfl
  rw [hfind]
  rcases hresult : e.find hz s i with ⟨found, entries⟩
  have hentries : entries = (e.find hz s i).2 := by rw [hresult]
  have hfound : found = (e.find hz s i).1 := by rw [hresult]
  rcases found with _ | idx
  · subst hentries
    exact .missed _ hold rfl (.inl hfound.symm)
  dsimp only
  subst hentries
  by_cases hpn : (((e.find hz s i).2.getD idx {}).pnFits s e.rx) = true
  swap
  · rw [Bool.not_eq_true] at hpn
    rw [hpn]
    exact .missed _ hold rfl (.inr ⟨idx, hfound.symm, hpn⟩)
  rw [hpn]
  rw [if_neg (by simp)]
  by_cases hmore : hasMorefrags e.rx.skb.hdr.frameControl = true
  · rw [if_pos hmore]
    exact .joined idx hold hfound.symm hmore
  rw [if_neg hmore]
  rw [Bool.not_eq_true] at hmore
  obtain ⟨skb, hskb⟩ := exists_assemble ((e.find hz s i).2.getD idx {}).skbList (e.fragment s i)
  have hassemble : assemble (((e.find hz s i).2.getD idx {}).push
      (fragmentOf s i e.rx e.rx.skb e.rx.key) e.rx.skb.hdr.frag).skbList = some skb := hskb
  rw [hassemble]
  dsimp only
  rcases hexpand : e.env.expandHead
  · exact .ended idx skb _ hold hfound.symm hmore hskb (by rw [hexpand]; rfl)
  · exact .ended idx skb _ hold hfound.symm hmore hskb (by rw [hexpand]; rfl)

/-! ### Our entry -/

/-- The entry is empty, or of another sender. -/
def Foreign (a : Mac) (e : FragmentEntry) : Prop := ∀ f ∈ e.skbList.head?, f.skb.hdr.addr2 ≠ a

/-- The entry is ours. -/
def Ours (a : Mac) (e : FragmentEntry) : Prop := ∃ f rest, e.skbList = f :: rest ∧ f.skb.hdr.addr2 = a

/-- The entry is in the ring, and the `c` entries that were started after it are not ours. -/
structure Pending (a : Mac) (entry : FragmentEntry) (c : ℕ) (entries : List FragmentEntry) (next : ℕ) :
    Prop where
  length : entries.length = FRAGMENT_MAX
  next_lt : next < FRAGMENT_MAX
  c_lt : c < FRAGMENT_MAX
  here : entries.getD (ringBack next c) {} = entry
  newer : ∀ m < c, Foreign a (entries.getD (ringBack next m) {})

section Entry

variable {a : Mac} {entry e' : FragmentEntry} {c next : ℕ} {entries entries' : List FragmentEntry}
  {hz jiffies : UInt64} {frag seq queue : ℕ} {hdr : Hdr}

theorem foreign_of_nil (h : e'.skbList = []) : Foreign a e' := by
  intro f hf
  rw [h] at hf
  cases hf

theorem foreign_cons {f : Fragment} {rest : List Fragment} (h : e'.skbList = f :: rest)
    (hf : f.skb.hdr.addr2 ≠ a) : Foreign a e' := by
  intro g hg
  rw [h, head?_cons, Option.mem_some_iff] at hg
  rwa [← hg]

theorem exists_of_match (h : e'.isMatch frag seq queue hdr = true) :
    ∃ f rest, e'.skbList = f :: rest ∧ hdr.addr2 = f.skb.hdr.addr2 := by
  rw [FragmentEntry.isMatch] at h
  split at h
  · cases h
  · rename_i f rest hlist
    simp only [Bool.and_eq_true, decide_eq_true_eq] at h
    exact ⟨f, rest, hlist, h.2⟩

theorem Ours.not_match (h : Ours a e') (hhdr : hdr.addr2 ≠ a) :
    e'.isMatch frag seq queue hdr = false := by
  by_contra hmatch
  rw [Bool.not_eq_false] at hmatch
  obtain ⟨f, rest, hlist, haddr⟩ := exists_of_match hmatch
  obtain ⟨f', rest', hlist', haddr'⟩ := h
  rw [hlist, List.cons.injEq] at hlist'
  rw [haddr, hlist'.1] at hhdr
  exact hhdr haddr'

theorem Foreign.not_match (h : Foreign a e') (hhdr : hdr.addr2 = a) :
    e'.isMatch frag seq queue hdr = false := by
  by_contra hmatch
  rw [Bool.not_eq_false] at hmatch
  obtain ⟨f, rest, hlist, haddr⟩ := exists_of_match hmatch
  refine h f ?_ (haddr.symm.trans hhdr)
  rw [hlist]
  rfl

theorem Pending.set_foreign (h : Pending a entry c entries next) {x : ℕ} (hx : x < entries.length)
    (hne : x ≠ ringBack next c) (he : Foreign a e') : Pending a entry c (entries.set x e') next where
  length := by rw [length_set, h.length]
  next_lt := h.next_lt
  c_lt := h.c_lt
  here := by rw [getD_set hx, if_neg hne, h.here]
  newer m hm := by
    rw [getD_set hx]
    split
    · exact he
    · exact h.newer m hm

theorem Pending.set_ours (h : Pending a entry c entries next) (e' : FragmentEntry) :
    Pending a e' c (entries.set (ringBack next c) e') next where
  length := by rw [length_set, h.length]
  next_lt := h.next_lt
  c_lt := h.c_lt
  here := by rw [getD_set (by rw [h.length]; exact ringBack_lt _ _), if_pos rfl]
  newer m hm := by
    have hc := h.c_lt
    have hne : ringBack next c ≠ ringBack next m := fun heq =>
      absurd (ringBack_inj hc (by omega) heq) (by omega)
    rw [getD_set (by rw [h.length]; exact ringBack_lt _ _), if_neg hne]
    exact h.newer m hm

theorem Pending.search (h : Pending a entry c entries next) (hours : Ours a entry)
    (hhdr : hdr.addr2 ≠ a) (n idx : ℕ) :
    Pending a entry c (reassembleFind hz jiffies frag seq queue hdr n idx entries).2 next where
  length := by rw [length_reassembleFind, h.length]
  next_lt := h.next_lt
  c_lt := h.c_lt
  here := by
    rcases @reassembleFind_getD hz jiffies frag seq queue hdr n idx entries (ringBack next c) with
      hsame | ⟨hmatch, -⟩
    · rw [hsame, h.here]
    · rw [h.here, hours.not_match hhdr] at hmatch
      cases hmatch
  newer m hm := by
    rcases @reassembleFind_getD hz jiffies frag seq queue hdr n idx entries (ringBack next m) with
      hsame | ⟨-, hnil⟩
    · rw [hsame]
      exact h.newer m hm
    · exact foreign_of_nil hnil

theorem ringBack_next (hnext : next < FRAGMENT_MAX) {m : ℕ} (hm : m + 1 < FRAGMENT_MAX) :
    ringBack (if FRAGMENT_MAX ≤ next + 1 then 0 else next + 1) (m + 1) = ringBack next m := by
  rw [ringBack, ringBack, FRAGMENT_MAX] at *
  split <;> omega

theorem ringBack_next_zero (hnext : next < FRAGMENT_MAX) :
    ringBack (if FRAGMENT_MAX ≤ next + 1 then 0 else next + 1) 0 = next := by
  rw [ringBack, FRAGMENT_MAX] at *
  split <;> omega

/-- Another sender starts an entry. Ours is not the one that is taken. -/
theorem Pending.add (h : Pending a entry c entries next) (hc : c + 1 < FRAGMENT_MAX)
    (he : Foreign a e') : Pending a entry (c + 1) (entries.set next e')
      (if FRAGMENT_MAX ≤ next + 1 then 0 else next + 1) := by
  have hnext := h.next_lt
  have hlength : next < entries.length := by rw [h.length]; exact hnext
  have hne : ∀ m, m + 1 < FRAGMENT_MAX → next ≠ ringBack next m := by
    intro m hm heq
    rw [ringBack, FRAGMENT_MAX] at *
    omega
  constructor
  · rw [length_set, h.length]
  · split
    · decide
    · omega
  · exact hc
  · rw [ringBack_next hnext hc, getD_set hlength, if_neg (hne c hc), h.here]
  · intro m hm
    rcases m with _ | m
    · rw [ringBack_next_zero hnext, getD_set hlength, if_pos rfl]
      exact he
    · rw [ringBack_next hnext (by omega), getD_set hlength, if_neg (hne m (by omega))]
      exact h.newer m (by omega)

theorem pending_start (hlength : entries.length = FRAGMENT_MAX) (hnext : next < FRAGMENT_MAX)
    (e' : FragmentEntry) :
    Pending a e' 0 (entries.set next e') (if FRAGMENT_MAX ≤ next + 1 then 0 else next + 1) where
  length := by rw [length_set, hlength]
  next_lt := by
    split
    · decide
    · omega
  c_lt := by decide
  here := by rw [ringBack_next_zero hnext, getD_set (by rw [hlength]; exact hnext), if_pos rfl]
  newer m hm := absurd hm (Nat.not_lt_zero m)

theorem Pending.find (h : Pending a entry c entries next) (hhdr : hdr.addr2 = a)
    (hmatch : entry.isMatch frag seq queue hdr = true)
    (hage : timeAfter jiffies (entry.firstFragTime + 2 * hz) = false) :
    reassembleFind hz jiffies frag seq queue hdr FRAGMENT_MAX next entries =
      (some (ringBack next c), entries) := by
  refine reassembleFind_newest (Nat.le_refl _) h.c_lt h.next_lt
    (fun m hm => (h.newer m hm).not_match hhdr) ?_ ?_
  · rw [h.here]
    exact hmatch
  · rw [h.here]
    exact hage

end Entry

/-! ### Other senders -/

/-- Our entry is in the ring of interface `i`. -/
def PendingAt (a : Mac) (entry : FragmentEntry) (c : ℕ) (s : Local) (i : SdataId) : Prop :=
  Pending a entry c (s.sdata i).fragments (s.sdata i).fragmentNext

section Other

variable {a : Mac} {entry : FragmentEntry} {c : ℕ} {s : Local} {i : SdataId} {hz : UInt64}
  {e : DefragInput}

theorem PendingAt.setFragments {entries : List FragmentEntry}
    (h : Pending a entry c entries (s.sdata i).fragmentNext) :
    PendingAt a entry c (s.updSdata i fun d => d.setFragments entries) i := by
  rw [PendingAt, Local.updSdata_sdata_self]
  exact h

/-- The entry that another sender's frame is found to continue is not ours. -/
theorem PendingAt.found (h : PendingAt a entry c s i) (hours : Ours a entry) (haddr : e.hdr.addr2 ≠ a)
    (hidx : (e.find hz s i).1 = some idx) :
    idx < (e.find hz s i).2.length ∧ idx ≠ ringBack (s.sdata i).fragmentNext c ∧
      ∃ f rest, ((e.find hz s i).2.getD idx {}).skbList = f :: rest ∧ f.skb.hdr.addr2 ≠ a := by
  have hmatch : ((e.find hz s i).2.getD idx {}).isMatch e.hdr.frag e.hdr.seq e.rx.seqnoIdx e.hdr = true :=
    reassembleFind_isMatch _ _ _ _ _ _ _ _ _ (Prod.ext hidx rfl)
  have hsearch : Pending a entry c (e.find hz s i).2 (s.sdata i).fragmentNext :=
    Pending.search h hours haddr FRAGMENT_MAX (s.sdata i).fragmentNext
  refine ⟨lt_length_of_isMatch hmatch, ?_, ?_⟩
  · rintro rfl
    rw [hsearch.here, hours.not_match haddr] at hmatch
    cases hmatch
  · obtain ⟨f, rest, hlist, hfirst⟩ := exists_of_match hmatch
    exact ⟨f, rest, hlist, hfirst ▸ haddr⟩

/-- **Other senders leave our entry alone**, and what they complete is not ours. -/
theorem PendingAt.other (h : PendingAt a entry c s i) (hours : Ours a entry) (haddr : e.hdr.addr2 ≠ a)
    (hc : e.isNew = true → c + 1 < FRAGMENT_MAX) :
    PendingAt a entry (c + if e.isNew then 1 else 0) (e.handle hz i s).2 i ∧
      ∀ skb ∈ (e.handle hz i s).1.completed, skb.hdr.addr2 ≠ a := by
  have hsearch : Pending a entry c (e.find hz s i).2 (s.sdata i).fragmentNext :=
    Pending.search h hours haddr FRAGMENT_MAX (s.sdata i).fragmentNext
  have hhandled := handle_handled hz i s e
  generalize e.handle hz i s = r at hhandled ⊢
  rcases hhandled with ⟨out, hnew, hout, -⟩ | hnew | ⟨out, hnew, hout, -⟩ | ⟨idx, hnew, hidx, hmore⟩ |
    ⟨idx, skb, out, hnew, hidx, hmore, hskb, hout⟩
  · rw [hnew, hout]
    exact ⟨h, by simp⟩
  · rw [hnew]
    refine ⟨?_, by simp [Defragmented.completed]⟩
    rw [PendingAt, Local.updSdata_sdata_self]
    exact Pending.add h (hc hnew) (foreign_cons rfl haddr)
  · rw [hnew, hout]
    exact ⟨.setFragments hsearch, by simp⟩
  · obtain ⟨hlt, hne, f, rest, hlist, hfirst⟩ := h.found hours haddr hidx
    rw [hnew]
    refine ⟨.setFragments (hsearch.set_foreign hlt hne ?_), by simp [Defragmented.completed]⟩
    have hpush : (((e.find hz s i).2.getD idx {}).push (e.fragment s i) e.hdr.frag).skbList =
        f :: (rest ++ [e.fragment s i]) := by
      rw [FragmentEntry.push, hlist]
      rfl
    exact foreign_cons hpush hfirst
  · obtain ⟨hlt, hne, f, rest, hlist, hfirst⟩ := h.found hours haddr hidx
    rw [hnew, hout]
    refine ⟨.setFragments (hsearch.set_foreign hlt hne (foreign_of_nil rfl)), ?_⟩
    rw [hlist] at hskb
    have haddr2 := assemble_addr2 hskb
    intro skb' hmem
    split at hmem
    · obtain rfl := mem_singleton.mp hmem
      rw [haddr2]
      exact hfirst
    · exact absurd hmem not_mem_nil

theorem PendingAt.others (h : PendingAt a entry c s i) (hours : Ours a entry) {es : List DefragInput}
    (haddr : ∀ e ∈ es, e.hdr.addr2 ≠ a) (hc : c + es.countP DefragInput.isNew < FRAGMENT_MAX) :
    ∃ s' outs, run (defragStep hz i) s es = some (s', outs) ∧
      PendingAt a entry (c + es.countP DefragInput.isNew) s' i ∧
      ∀ skb ∈ outs, skb.hdr.addr2 ≠ a := by
  induction es generalizing s c with
  | nil => exact ⟨s, [], rfl, h, by simp⟩
  | cons e es ih =>
    have hcount : (e :: es).countP DefragInput.isNew =
        (if e.isNew then 1 else 0) + es.countP DefragInput.isNew := by
      rw [countP_cons, Nat.add_comm]
    rw [hcount, ← Nat.add_assoc] at hc
    have hroom : e.isNew = true → c + 1 < FRAGMENT_MAX := fun hnew => by
      rw [hnew, if_pos rfl] at hc
      omega
    obtain ⟨hnext, hout⟩ := @PendingAt.other a entry c s i hz e h hours (haddr e mem_cons_self) hroom
    obtain ⟨s', outs, hrun, hpending, houts⟩ :=
      ih hnext (fun e' he' => haddr e' (mem_cons_of_mem _ he')) hc
    refine ⟨s', (e.handle hz i s).1.completed ++ outs, ?_, ?_, ?_⟩
    · rw [run, defragStep]
      dsimp only
      rw [hrun]
    · rw [hcount, ← Nat.add_assoc]
      exact hpending
    · intro skb hskb
      rcases mem_append.mp hskb with hfirst | hrest
      · exact hout skb hfirst
      · exact houts skb hrest

end Other

/-! ### Our fragments -/

/-- The entry has the first `k` fragments of the frame, in the clear. -/
structure Collects (skb : TxSkb) (parts : List (List UInt8)) (first : DefragInput) (k : ℕ)
    (entry : FragmentEntry) : Prop where
  hdrs : entry.skbList.map (fun f => f.skb.hdr) =
    ((skb.fragments 0 parts).take k).map TxSkb.hdr
  seq : entry.seq = skb.hdr.seq
  rxQueue : entry.rxQueue = (parseQos skb.hdr.frameControl skb.hdr.qosCtl).1
  lastFrag : entry.lastFrag + 1 = k
  plain : entry.checkSequentialPn = false
  firstFragTime : entry.firstFragTime = first.jiffies

/-- A frame that can be split and put together: data for one receiver, in the clear, and without a fragment
number. -/
structure PlainUnicast (skb : TxSkb) : Prop where
  data : isData skb.hdr.frameControl = true
  unicast : isMulticastEtherAddr skb.hdr.addr1 = false
  clear : hasProtected skb.hdr.frameControl = false
  number : skb.hdr.seqCtrl &&& SCTL_FRAG = 0

section Ours

variable {skb : TxSkb} {parts : List (List UInt8)} {first e : DefragInput} {k c : ℕ}
  {entry : FragmentEntry} {s : Local} {i : SdataId} {hz : UInt64} {frag : TxSkb}

theorem isCtl_of_isData {fc : UInt16} (h : isData fc = true) : isCtl fc = false := by
  rw [isData, decide_eq_true_eq] at h
  rw [isCtl, h]
  rfl

theorem map_body_fragments (h : skb.hdr.Whole) (n : ℕ) (parts : List (List UInt8)) :
    (skb.fragments n parts).map (fun frag => frag.hdr.body) = parts := by
  induction parts generalizing n with
  | nil => rfl
  | cons part parts ih =>
    rw [TxSkb.fragments, map_cons, ih, body_fragment h]

/-- **All fragments together are the frame.** -/
theorem body_assemble (h : skb.hdr.Whole) {part : List UInt8} {fs : List Fragment} {skb' : RxSkb}
    (hfs : fs.map (fun f => f.skb.hdr) = (skb.fragments 0 (part :: parts)).map TxSkb.hdr)
    (hskb : assemble fs = some skb') : skb'.hdr.body = (part :: parts).flatten := by
  rcases fs with _ | ⟨g, fs⟩
  · cases hskb
  rw [TxSkb.fragments, map_cons, map_cons, List.cons.injEq] at hfs
  obtain ⟨hg, hrest⟩ := hfs
  have hbodies : fs.map (fun f => f.skb.hdr.body) = parts := by
    have hmap := congrArg (List.map Hdr.body) hrest
    rw [map_map, map_map] at hmap
    exact hmap.trans (map_body_fragments h 1 parts)
  have hfc : g.skb.hdr.frameControl = markMore skb.hdr.frameControl !parts.isEmpty := by
    rw [hg]
    rfl
  have hgrest : g.skb.hdr.rest = skb.hdr.rest.take (hdrlen skb.hdr.frameControl - 24) ++ part := by
    rw [hg]
    rfl
  cases hskb
  show (g.skb.hdr.rest ++ (fs.map fun f => f.skb.hdr.body).flatten).drop
    (hdrlen g.skb.hdr.frameControl - 24) = _
  rw [hbodies, hfc, hdrlen_markMore, hgrest, append_assoc,
    drop_left' (length_take_of_whole h), flatten_cons]

theorem Carries.facts (h : PlainUnicast skb) (hwhole : skb.hdr.Whole) (hfrag : (skb.fragments 0 parts)[k]? = some frag)
    (hk : k < 16) (hcarries : Carries frag e) : e.hdr.frag = k ∧ e.hdr.seq = skb.hdr.seq ∧
      hasMorefrags e.hdr.frameControl = decide (k + 1 < parts.length) ∧
      e.hdr.addr1 = skb.hdr.addr1 ∧ e.hdr.addr2 = skb.hdr.addr2 ∧
      e.rx.seqnoIdx = (parseQos skb.hdr.frameControl skb.hdr.qosCtl).1 ∧
      ∃ more, e.hdr.frameControl = markMore skb.hdr.frameControl more := by
  rw [getElem?_fragments, Option.map_eq_some_iff] at hfrag
  obtain ⟨part, -, rfl⟩ := hfrag
  rw [Nat.zero_add] at hcarries
  rw [hcarries.queue, hcarries.hdr, frag_fragment h.number hk, seq_fragment, addr1_fragment, addr2_fragment,
    frameControl_fragment, hasMorefrags_markMore]
  refine ⟨rfl, rfl, rfl, rfl, rfl, ?_, _, rfl⟩
  rw [← frameControl_fragment skb k _ part]
  exact parseQos_fragment h.data hwhole k _ part

theorem xor_markMore (fc : UInt16) (more more' : Bool) :
    (markMore fc more ^^^ markMore fc more') &&& FCTL_FTYPE = 0 := by
  have hdistrib : (markMore fc more ^^^ markMore fc more') &&& FCTL_FTYPE =
      (markMore fc more &&& FCTL_FTYPE) ^^^ (markMore fc more' &&& FCTL_FTYPE) := by
    rw [← UInt16.toBitVec_inj]
    ext i hi
    simp only [UInt16.toBitVec_and, UInt16.toBitVec_xor, BitVec.getElem_and, BitVec.getElem_xor]
    exact (by decide : ∀ a b c : Bool, ((a ^^ b) && c) = ((a && c) ^^ (b && c))) _ _ _
  rw [hdistrib, markMore_and (by decide) (by decide), markMore_and (by decide) (by decide),
    UInt16.xor_self]

theorem Collects.isMatch (h : PlainUnicast skb) (hwhole : skb.hdr.Whole) (hc : Collects skb parts first k entry)
    (hk : 0 < k) (hk16 : k < 16) (hfrag : (skb.fragments 0 parts)[k]? = some frag) (he : Carries frag e) :
    Ours skb.hdr.addr2 entry ∧
      entry.isMatch e.hdr.frag e.hdr.seq e.rx.seqnoIdx e.hdr = true := by
  obtain ⟨hnumber, hseq, -, haddr1, haddr2, hqueue, more, hfc⟩ := he.facts h hwhole hfrag hk16
  obtain ⟨part, rest, rfl⟩ : ∃ part rest, parts = part :: rest := by
    rcases parts with _ | ⟨part, rest⟩
    · cases hfrag
    · exact ⟨part, rest, rfl⟩
  obtain ⟨k, rfl⟩ := Nat.exists_eq_succ_of_ne_zero (Nat.ne_of_gt hk)
  have hhdrs := hc.hdrs
  rw [TxSkb.fragments, take_succ_cons, map_cons] at hhdrs
  obtain ⟨f, fs, hlist, hf, -⟩ := map_eq_cons_iff.mp hhdrs
  have hfirst : f.skb.hdr.addr2 = skb.hdr.addr2 := by rw [hf, addr2_fragment]
  refine ⟨⟨f, fs, hlist, hfirst⟩, ?_⟩
  have hftype : (e.hdr.frameControl ^^^ f.skb.hdr.frameControl) &&& FCTL_FTYPE = 0 := by
    rw [hfc, hf, frameControl_fragment, xor_markMore]
  rw [FragmentEntry.isMatch, hlist]
  simp only [hc.seq, hc.rxQueue, hc.lastFrag, hnumber, hseq, hqueue, hftype, haddr1, haddr2, hfirst]
  rw [hf, addr1_fragment]
  simp

theorem first_step (h : PlainUnicast skb) (hwhole : skb.hdr.Whole)
    (hfrag : (skb.fragments 0 parts)[0]? = some frag) (hlong : 1 < parts.length) (he : Carries frag e)
    (hwf : RingWf (s.sdata i)) :
    ∃ s' entry, defragStep hz i s e = some (s', []) ∧ PendingAt skb.hdr.addr2 entry 0 s' i ∧
      Collects skb parts e 1 entry := by
  obtain ⟨hnumber, hseq, hmore, haddr1, -, hqueue, more, hfc⟩ := he.facts h hwhole hfrag (by decide)
  have hnew : e.isNew = true := by
    rw [DefragInput.isNew, hnumber, hmore, haddr1, h.unicast, he.linear, hfc, isCtl_markMore,
      isCtl_of_isData h.data]
    simp [hlong]
  have hhandled := handle_handled hz i s e
  rw [defragStep]
  generalize e.handle hz i s = r at hhandled ⊢
  rcases hhandled with ⟨_, hno, -, -⟩ | - | ⟨_, hno, -, -⟩ | ⟨_, hno, -, -⟩ | ⟨_, _, _, hno, -, -, -, -⟩
  · exact absurd hno (by simp [hnew])
  · refine ⟨_, firstEntry e.jiffies s i e.rx (e.fragment s i), rfl, ?_, ?_⟩
    · rw [PendingAt, Local.updSdata_sdata_self]
      exact pending_start hwf.length hwf.next _
    · have hclear : hasProtected e.hdr.frameControl = false := by
        rw [hfc, hasProtected_markMore, h.clear]
      constructor
      · rw [take_one, head?_eq_getElem?, hfrag]
        exact congrArg (fun hdr => [hdr]) he.hdr
      · exact hseq
      · exact hqueue
      · exact congrArg (· + 1) hnumber
      · show (hasPnKey s e.rx && hasProtected e.hdr.frameControl) = false
        rw [hclear, Bool.and_false]
      · rfl
  · exact absurd hno (by simp [hnew])
  · exact absurd hno (by simp [hnew])
  · exact absurd hno (by simp [hnew])

/-- A later fragment is found its entry, and it is kept there or completes the frame. -/
theorem later_step (h : PlainUnicast skb) (hwhole : skb.hdr.Whole) (hp : PendingAt skb.hdr.addr2 entry c s i)
    (hc : Collects skb parts first k entry) (hk : 0 < k) (hk16 : k < 16)
    (hfrag : (skb.fragments 0 parts)[k]? = some frag) (he : Carries frag e)
    (htime : timeAfter e.jiffies (first.jiffies + 2 * hz) = false) : if k + 1 < parts.length then
      ∃ s' entry', defragStep hz i s e = some (s', []) ∧ PendingAt skb.hdr.addr2 entry' c s' i ∧
        Collects skb parts first (k + 1) entry'
    else
      ∃ s' skb', defragStep hz i s e = some (s', [skb']) ∧ skb'.hdr.addr2 = skb.hdr.addr2 ∧
        skb'.hdr.body = parts.flatten := by
  obtain ⟨hnumber, -, hmore, haddr1, haddr2, -, more, hfc⟩ := he.facts h hwhole hfrag hk16
  obtain ⟨⟨f, fs, hlist, hfirst⟩, hmatch⟩ := hc.isMatch h hwhole hk hk16 hfrag he
  have hfind : e.find hz s i = (some (ringBack (s.sdata i).fragmentNext c), (s.sdata i).fragments) :=
    Pending.find hp haddr2 hmatch (by rw [hc.firstFragTime]; exact htime)
  have hentry : (e.find hz s i).2.getD (ringBack (s.sdata i).fragmentNext c) {} = entry := by
    rw [hfind]
    exact hp.here
  have hold : e.isNew = false := by
    rw [DefragInput.isNew, hnumber]
    simp [Nat.ne_of_gt hk]
  have hhdrs : ∀ g : Fragment, g.skb.hdr = e.hdr → (entry.skbList ++ [g]).map (fun f => f.skb.hdr) =
      ((skb.fragments 0 parts).take (k + 1)).map TxSkb.hdr := by
    intro g hg
    rw [take_add_one, hfrag, map_append, map_append, hc.hdrs]
    exact congrArg (fun hdr => _ ++ [hdr]) (hg.trans he.hdr)
  have hhandled := handle_handled hz i s e
  rw [defragStep]
  generalize e.handle hz i s = r at hhandled ⊢
  rcases hhandled with ⟨_, -, -, hwhy⟩ | hnew | ⟨_, -, -, hwhy⟩ | ⟨idx, -, hidx, hmorefrags⟩ |
    ⟨idx, skb', out, -, hidx, hmorefrags, hskb, hout⟩
  · exfalso
    rcases hwhy with hctl | hgroup | hzero | hlinear
    · rw [hfc, isCtl_markMore, isCtl_of_isData h.data] at hctl
      cases hctl
    · rw [haddr1, h.unicast] at hgroup
      cases hgroup
    · omega
    · rw [he.linear] at hlinear
      cases hlinear
  · rw [hold] at hnew
    cases hnew
  · exfalso
    rcases hwhy with hnone | ⟨idx, hidx, hpn⟩
    · rw [hfind] at hnone
      cases hnone
    · rw [hfind] at hidx
      cases hidx
      rw [hentry, FragmentEntry.pnFits, hc.plain] at hpn
      cases hpn
  · rw [hfind] at hidx
    cases hidx
    rw [hmore, decide_eq_true_eq] at hmorefrags
    rw [if_pos hmorefrags]
    refine ⟨_, entry.push (e.fragment s i) e.hdr.frag, rfl, ?_, ?_⟩
    · rw [hentry, hfind]
      exact .setFragments (Pending.set_ours hp _)
    · exact {
        hdrs := hhdrs _ rfl
        seq := hc.seq
        rxQueue := hc.rxQueue
        lastFrag := congrArg (· + 1) hnumber
        plain := hc.plain
        firstFragTime := hc.firstFragTime }
  · rw [hfind] at hidx
    cases hidx
    rw [hmore, decide_eq_false_iff_not] at hmorefrags
    rw [if_neg hmorefrags]
    rw [hentry] at hskb
    refine ⟨_, skb', by rw [hout, he.expandHead]; rfl, ?_, ?_⟩
    · rw [hlist] at hskb
      rw [assemble_addr2 hskb, hfirst]
    · have hall := hhdrs (e.fragment s i) rfl
      rw [take_of_length_le (by rw [length_fragments]; omega)] at hall
      rcases parts with _ | ⟨part, parts⟩
      · cases hfrag
      · exact body_assemble hwhole hall hskb

end Ours

/-! ### The whole train -/

section Train

variable {skb : TxSkb} {parts : List (List UInt8)} {first : DefragInput} {s : Local} {i : SdataId}
  {hz : UInt64}

theorem run_single {e : DefragInput} {s' : Local} {outs : List RxSkb}
    (h : defragStep hz i s e = some (s', outs)) : run (defragStep hz i) s [e] = some (s', outs) := by
  rw [run, h]
  simp [run]

theorem later_run (h : PlainUnicast skb) (hwhole : skb.hdr.Whole) (h16 : parts.length ≤ 16)
    (later : List (List DefragInput × DefragInput)) {k c : ℕ} {entry : FragmentEntry}
    (hp : PendingAt skb.hdr.addr2 entry c s i) (hc : Collects skb parts first k entry) (hk : 0 < k)
    (hlong : k < parts.length)
    (hcarries : List.Forall₂ Carries ((skb.fragments 0 parts).drop k) (later.map Prod.snd))
    (hothers : ∀ gap ∈ later, ∀ e ∈ gap.1, e.hdr.addr2 ≠ skb.hdr.addr2)
    (hfew : c + (later.flatMap Prod.fst).countP DefragInput.isNew < FRAGMENT_MAX)
    (htime : ∀ gap ∈ later, timeAfter gap.2.jiffies (first.jiffies + 2 * hz) = false) :
    ∃ s' outs skb', run (defragStep hz i) s (later.flatMap fun gap => gap.1 ++ [gap.2]) =
        some (s', outs) ∧
      outs.filter (fun out => out.hdr.addr2 = skb.hdr.addr2) = [skb'] ∧
      skb'.hdr.body = parts.flatten := by
  have hlength : k < (skb.fragments 0 parts).length := by rwa [length_fragments]
  induction later generalizing s k c entry with
  | nil =>
    rw [drop_eq_getElem_cons hlength] at hcarries
    cases hcarries
  | cons gap later ih =>
    obtain ⟨others, e⟩ := gap
    rw [drop_eq_getElem_cons hlength, map_cons, List.forall₂_cons] at hcarries
    obtain ⟨he, hcarries⟩ := hcarries
    have hfrag : (skb.fragments 0 parts)[k]? = some (skb.fragments 0 parts)[k] :=
      getElem?_eq_getElem hlength
    rw [flatMap_cons, countP_append, ← Nat.add_assoc] at hfew
    obtain ⟨hours, -⟩ := hc.isMatch h hwhole hk (by omega) hfrag he
    obtain ⟨s₁, outs₁, hrun₁, hp₁, houts₁⟩ :=
      @PendingAt.others _ _ _ _ _ hz hp hours others (hothers _ mem_cons_self)
        (Nat.lt_of_le_of_lt (Nat.le_add_right _ _) hfew)
    have hfilter : outs₁.filter (fun out => out.hdr.addr2 = skb.hdr.addr2) = [] := by
      rw [filter_eq_nil_iff]
      intro out hout
      simpa using houts₁ out hout
    have hstep := later_step h hwhole hp₁ hc hk (by omega) hfrag he (htime _ mem_cons_self)
    by_cases hmore : k + 1 < parts.length
    · rw [if_pos hmore] at hstep
      obtain ⟨s₂, entry₂, hstep₂, hp₂, hc₂⟩ := hstep
      obtain ⟨s₃, outs₃, skb', hrun₃, hfilter₃, hbody⟩ := ih hp₂ hc₂ (Nat.succ_pos k) hmore hcarries
        (fun gap hgap => hothers gap (mem_cons_of_mem _ hgap)) hfew
        (fun gap hgap => htime gap (mem_cons_of_mem _ hgap)) (by rwa [length_fragments])
      refine ⟨s₃, outs₁ ++ [] ++ outs₃, skb', ?_, ?_, hbody⟩
      · exact run_append (run_append hrun₁ (run_single hstep₂)) hrun₃
      · rw [append_nil, filter_append, hfilter, hfilter₃, nil_append]
    · rw [if_neg hmore] at hstep
      obtain ⟨s₂, skb', hstep₂, haddr, hbody⟩ := hstep
      have hnil : later = [] := by
        rw [drop_of_length_le (by rw [length_fragments]; omega)] at hcarries
        exact map_eq_nil_iff.mp (List.forall₂_nil_left_iff.mp hcarries)
      subst hnil
      refine ⟨s₂, outs₁ ++ [skb'] ++ [], skb', ?_, ?_, hbody⟩
      · exact run_append (run_append hrun₁ (run_single hstep₂)) rfl
      · rw [append_nil, filter_append, hfilter]
        simp [haddr]

end Train

/-- What the fragments of a frame are like. -/
structure WellSplit (skb : TxSkb) (fragThreshold : ℕ) (frags : List TxSkb) : Prop where
  number : ∀ (k : ℕ) (frag : TxSkb), frags[k]? = some frag → frag.hdr.frag = k
  seq : ∀ frag ∈ frags, frag.hdr.seq = skb.hdr.seq
  more : ∀ (k : ℕ) (frag : TxSkb), frags[k]? = some frag →
    hasMorefrags frag.hdr.frameControl = decide (k + 1 < frags.length)
  short : ∀ frag ∈ frags, frag.hdr.len + FCS_LEN ≤ fragThreshold

theorem mem_fragments {skb frag : TxSkb} {n : ℕ} {parts : List (List UInt8)}
    (h : frag ∈ skb.fragments n parts) : ∃ k more, ∃ part ∈ parts, frag = skb.fragment k more part := by
  obtain ⟨k, hk⟩ := mem_iff_getElem?.mp h
  rw [getElem?_fragments, Option.map_eq_some_iff] at hk
  obtain ⟨part, hpart, rfl⟩ := hk
  exact ⟨_, _, part, mem_of_getElem? hpart, rfl⟩

theorem wellSplit_fragments {skb : TxSkb} {n fragThreshold : ℕ} (h : PlainUnicast skb)
    (hwhole : skb.hdr.Whole) (hn : 0 < n)
    (hthreshold : hdrlen skb.hdr.frameControl + FCS_LEN + n = fragThreshold)
    (h16 : (skb.fragments 0 (skb.hdr.body.toChunks n)).length ≤ 16) :
    WellSplit skb fragThreshold (skb.fragments 0 (skb.hdr.body.toChunks n)) := by
  constructor
  · intro k frag hfrag
    have hk : k < 16 := Nat.lt_of_lt_of_le (List.getElem?_eq_some_iff.mp hfrag).1 h16
    rw [getElem?_fragments, Option.map_eq_some_iff] at hfrag
    obtain ⟨part, -, rfl⟩ := hfrag
    rw [Nat.zero_add, frag_fragment h.number hk]
  · intro frag hfrag
    obtain ⟨k, more, part, -, rfl⟩ := mem_fragments hfrag
    exact seq_fragment skb k more part
  · intro k frag hfrag
    rw [getElem?_fragments, Option.map_eq_some_iff] at hfrag
    obtain ⟨part, -, rfl⟩ := hfrag
    rw [frameControl_fragment, hasMorefrags_markMore, length_fragments]
  · intro frag hfrag
    obtain ⟨k, more, part, hpart, rfl⟩ := mem_fragments hfrag
    have hlen := Chunks.length_le_of_mem hn hpart
    rw [len_fragment hwhole]
    omega

/-- **The fragments of a frame are well split, and come together again**, in order, with frames of
others between them that start fewer entries than the ring has. -/
theorem fragments_round_trip {env : TxEnv} {s : Local} {skb : TxSkb} {frags : List TxSkb}
    (h : PlainUnicast skb) (hsplit : SplitHere s skb) (hfrags : txHFragmentLoop env s skb = some frags)
    (h16 : frags.length ≤ 16) : WellSplit skb s.fragThreshold frags ∧
      ∀ (hz : UInt64) (r : Local) (i : SdataId) (first : DefragInput)
        (later : List (List DefragInput × DefragInput)),
        RingWf (r.sdata i) → Feeds hz frags first later →
        ∃ r' outs skb', run (defragStep hz i) r (feedInputs first later) = some (r', outs) ∧
          outs.filter (fun out => out.hdr.addr2 = skb.hdr.addr2) = [skb'] ∧
          skb'.hdr.body = skb.hdr.body := by
  obtain ⟨hwhole, n, hn, hthreshold, hlong, rfl⟩ :=
    txHFragmentLoop_spec (hdrlen_of_isData h.data) hsplit hfrags
  refine ⟨wellSplit_fragments h hwhole hn hthreshold h16, ?_⟩
  intro hz r i first later hwf hfeeds
  set parts := skb.hdr.body.toChunks n with hparts
  rw [length_fragments] at h16
  have htwo : 1 < parts.length := by
    have hne : skb.hdr.body ≠ [] := ne_nil_of_length_pos (by omega)
    have hrest : skb.hdr.body.drop n ≠ [] := by
      rw [Ne, drop_eq_nil_iff]
      omega
    rw [hparts, Chunks.toChunks_eq hn hne, Chunks.toChunks_eq hn hrest]
    simp
  obtain ⟨hcarries, hothers, hfew, htime⟩ := hfeeds
  obtain ⟨frag, rest, hlist⟩ := exists_cons_of_length_pos
    (show 0 < (skb.fragments 0 parts).length by rw [length_fragments]; omega)
  rw [hlist, List.forall₂_cons] at hcarries
  obtain ⟨he, hcarries⟩ := hcarries
  have hfrag : (skb.fragments 0 parts)[0]? = some frag := by rw [hlist]; rfl
  have hdrop : (skb.fragments 0 parts).drop 1 = rest := by rw [hlist]; rfl
  obtain ⟨-, -, -, -, haddr, -⟩ := he.facts h hwhole hfrag (by decide)
  obtain ⟨s₁, entry, hstep, hp, hc⟩ := @first_step skb parts first r i hz frag h hwhole hfrag htwo he hwf
  rw [haddr] at hothers
  obtain ⟨r', outs, skb', hrun, hfilter, hbody⟩ := later_run h hwhole h16 later hp hc Nat.one_pos htwo
    (by rwa [hdrop]) hothers (by rwa [Nat.zero_add]) htime
  refine ⟨r', outs, skb', ?_, hfilter, ?_⟩
  · rw [feedInputs, ← singleton_append]
    exact run_append (run_single hstep) hrun
  · rw [hbody, hparts, Chunks.flatten_toChunks hn]

/-! ### A frame of two fragments -/

/-- A data frame with 300 bytes behind its header. -/
def longFrame : TxSkb where
  hdr := {
    frameControl := FTYPE_DATA ||| FCTL_TODS
    durationId := 0
    addr1 := localMac 1
    addr2 := localMac 2
    addr3 := localMac 3
    seqCtrl := 0x120
    rest := List.replicate 300 7 }

/-- One interface, and a threshold of 256. -/
def thresholdLocal : Local where
  sdata := fun _ => { type := .station, addr := localMac 2 }
  fragThreshold := 256

/-- Its fragments, of 228 and 72 bytes. -/
def longFragments : TxSkb × TxSkb :=
  (longFrame.fragment 0 true (List.replicate 228 7), longFrame.fragment 1 false (List.replicate 72 7))

/-- A frame as it comes in. -/
def inputOf (h : Hdr) (jiffies : UInt64) : DefragInput where
  jiffies := jiffies
  rx := { skb := { hdr := h }, seqnoIdx := NUM_TIDS }

/-- The first fragment of another sender. -/
def otherFirst (n : UInt8) : DefragInput :=
  inputOf { longFragments.1.hdr with addr2 := #v[2, 0, 0, 0, 1, n] } 0

/-- A receiver. -/
def receiver : Local where
  sdata := fun _ => { type := .ap, addr := localMac 1 }

/-- The second fragment, behind those of three others. -/
def interleaved : List (List DefragInput × DefragInput) :=
  [([otherFirst 1, otherFirst 2, otherFirst 3], inputOf longFragments.2.hdr 1)]

theorem feeds_interleaved :
    Feeds 100 [longFragments.1, longFragments.2] (inputOf longFragments.1.hdr 0) interleaved := by
  constructor
  · exact .cons ⟨rfl, by decide +kernel, rfl, rfl⟩ (.cons ⟨rfl, by decide +kernel, rfl, rfl⟩ .nil)
  · decide +kernel
  · decide +kernel
  · decide +kernel

theorem fragments_round_trip_interleaved :
    WellSplit longFrame 256 [longFragments.1, longFragments.2] ∧
      ∃ r' outs skb', run (defragStep 100 0) receiver
          (feedInputs (inputOf longFragments.1.hdr 0) interleaved) = some (r', outs) ∧
        outs.filter (fun out => out.hdr.addr2 = longFrame.hdr.addr2) = [skb'] ∧
        skb'.hdr.body = longFrame.hdr.body := by
  have h : PlainUnicast longFrame := ⟨by decide, by decide, by decide, by decide⟩
  have hfrags : txHFragmentLoop {} thresholdLocal longFrame = some [longFragments.1, longFragments.2] := by
    decide +kernel
  obtain ⟨hwell, hrun⟩ := fragments_round_trip h ⟨rfl, rfl⟩ hfrags (by decide)
  exact ⟨hwell, hrun 100 receiver 0 _ interleaved ⟨rfl, by decide⟩ feeds_interleaved⟩

/-- A frame that may not be split stays longer than the threshold; a fragment number is ORed to one
that is there; without memory nothing is completed. -/
theorem not_every_frame_round_trips :
    (∃ frags, txHFragmentLoop {} thresholdLocal { longFrame with info := { dontfrag := true } } = some frags ∧
      ¬WellSplit longFrame 256 frags) ∧
    (∃ frags, txHFragmentLoop {} thresholdLocal
        { longFrame with hdr := { longFrame.hdr with seqCtrl := 0x121 } } = some frags ∧
      ¬WellSplit longFrame 256 frags) ∧
    (run (defragStep 100 0) receiver [inputOf longFragments.1.hdr 0,
      { inputOf longFragments.2.hdr 1 with env := { expandHead := false } }]).map Prod.snd = some [] := by
  refine ⟨?_, ?_, by decide +kernel⟩
  · refine ⟨_, rfl, fun h => ?_⟩
    exact absurd (h.short _ mem_cons_self) (by decide +kernel)
  · have hfrags : (txHFragmentLoop {} thresholdLocal
        { longFrame with hdr := { longFrame.hdr with seqCtrl := 0x121 } }).map
          (fun frags => frags.map fun frag => frag.hdr.frag) = some [1, 1] := by decide +kernel
    obtain ⟨frags, hsome, hnumbers⟩ := Option.map_eq_some_iff.mp hfrags
    refine ⟨frags, hsome, fun h => ?_⟩
    obtain ⟨frag, frags, rfl⟩ := exists_cons_of_ne_nil (show frags ≠ [] by rintro rfl; cases hnumbers)
    have hzero := h.number 0 frag rfl
    rw [map_cons, List.cons.injEq] at hnumbers
    omega

end Mac80211
