import Mac80211.Lib.Sharing
import Mac80211.State

/-!
# Multicast frames as unicast frames

`ieee80211_convert_to_unicast` of `tx.c`: a frame to a group is sent to each station instead, as a
clone that shares its data until its destination is rewritten. The frame itself becomes the copy of
the first station last. Each allocation of memory may fail, in any pattern.

## Main results

* `convertToUnicast_all_or_nothing`
-/

namespace Mac80211

open List

/-- `struct sta_info`, as far as the conversion goes. -/
structure McastSta where
  sdata : SdataId
  addr : Mac

/-- The data of all frames, and how many allocations were tried so far. -/
structure SkbMem where
  heap : Sharing.Heap (List UInt8)
  tried : ℕ := 0

/-- `ETH_HLEN`. -/
def ETH_HLEN : ℕ := 14

section

variable (fails : ℕ → Bool)

/-- `skb_clone`. -/
def skbClone (mem : SkbMem) (skb : ℕ) : Option ℕ × SkbMem :=
  if fails mem.tried then (none, { mem with tried := mem.tried + 1 })
  else (some skb, { heap := mem.heap.share skb, tried := mem.tried + 1 })

/-- `skb_ensure_writable`: the frame with a block of its own. -/
def skbEnsureWritable (mem : SkbMem) (skb : ℕ) (len : ℕ) : Option ℕ × SkbMem :=
  if (mem.heap.data skb).length < len then (none, mem)
  else if mem.heap.refs skb = 1 then (some skb, mem)
  else if fails mem.tried then (none, { mem with tried := mem.tried + 1 })
  else
    let (skb, heap) := mem.heap.unshare skb
    (some skb, { heap := heap, tried := mem.tried + 1 })

/-- `ieee80211_change_da`. -/
def changeDa (mem : SkbMem) (skb : ℕ) (sta : McastSta) : Option ℕ × SkbMem :=
  match skbEnsureWritable fails mem skb ETH_HLEN with
  | (none, mem) => (none, mem)
  | (some skb, mem) =>
    (some skb,
      { mem with heap := mem.heap.write skb (Bytes.memcpyAt (mem.heap.data skb) 0 sta.addr.toList) })

/-- `eth->h_source`. -/
def hSource (data : List UInt8) : List UInt8 := (data.drop 6).take 6

/-- What the loop keeps. -/
structure ConvState where
  mem : SkbMem
  first : Option McastSta := none
  queue : List ℕ := []

/-- The loop over the stations; `false` is the jump to `multicast`. -/
def convertLoop (sdata : SdataId) (skb : ℕ) : List McastSta → ConvState → ConvState × Bool
  | [], s => (s, true)
  | sta :: stas, s =>
    if sta.sdata ≠ sdata then convertLoop sdata skb stas s
    else if hSource (s.mem.heap.data skb) = sta.addr.toList then convertLoop sdata skb stas s
    else
      match s.first with
      | none => convertLoop sdata skb stas { s with first := some sta }
      | some _ =>
        match skbClone fails s.mem skb with
        | (none, mem) => ({ s with mem := mem }, false)
        | (some cloned, mem) =>
          match changeDa fails mem cloned sta with
          | (none, mem) => ({ s with mem := { mem with heap := mem.heap.release cloned } }, false)
          | (some cloned, mem) =>
            convertLoop sdata skb stas { s with
              mem := mem
              queue := s.queue ++ [cloned] }

/-- `multicast:`. -/
def toMulticast (skb : ℕ) (queue : List ℕ) (mem : SkbMem) : List ℕ × SkbMem :=
  ([skb], { mem with heap := queue.foldl (fun heap b => heap.release b) mem.heap })

/-- `ieee80211_convert_to_unicast`, of a frame on interface `sdata`: the queue, and the memory. -/
def convertToUnicast (staList : List McastSta) (sdata : SdataId) (mem : SkbMem) (skb : ℕ) :
    List ℕ × SkbMem :=
  match convertLoop fails sdata skb staList { mem := mem } with
  | (s, false) => toMulticast skb s.queue s.mem
  | (s, true) =>
    match s.first with
    | none => (s.queue, { s.mem with heap := s.mem.heap.release skb })
    | some first =>
      match changeDa fails s.mem skb first with
      | (none, mem) => toMulticast skb s.queue mem
      | (some skb, mem) => (s.queue ++ [skb], mem)

end

/-! ### The stations the frame is for -/

/-- The stations of the interface, except the one that the frame came from. -/
def mcastReceivers (staList : List McastSta) (sdata : SdataId) (frame : List UInt8) : List McastSta :=
  staList.filter fun sta => sta.sdata = sdata && hSource frame ≠ sta.addr.toList

/-- The frame with the address of a station as its destination. -/
def unicastTo (frame : List UInt8) (sta : McastSta) : List UInt8 := sta.addr.toList ++ frame.drop 6

/-- A block that is in use. -/
def SkbMem.Live (mem : SkbMem) (skb : ℕ) : Prop := skb < mem.heap.next ∧ 0 < mem.heap.refs skb

/-! ### Rewriting -/

section Rewriting

variable {fails : ℕ → Bool} {mem mem' : SkbMem} {skb skb' : ℕ} {sta : McastSta} {r : Option ℕ}

theorem skbClone_cases (h : skbClone fails mem skb = (r, mem')) :
    (r = none ∧ mem'.heap = mem.heap) ∨ (r = some skb ∧ mem'.heap = mem.heap.share skb) := by
  rw [skbClone] at h
  split at h
  · cases h
    exact .inl ⟨rfl, rfl⟩
  · cases h
    exact .inr ⟨rfl, rfl⟩

theorem skbEnsureWritable_cases {len : ℕ} (h : skbEnsureWritable fails mem skb len = (r, mem')) :
    (r = none ∧ mem'.heap = mem.heap) ∨
      (r = some (mem.heap.unshare skb).1 ∧ mem'.heap = (mem.heap.unshare skb).2) := by
  rw [skbEnsureWritable] at h
  split at h
  · cases h
    exact .inl ⟨rfl, rfl⟩
  split at h
  · rename_i hown
    cases h
    rw [Sharing.Heap.unshare, if_pos hown]
    exact .inr ⟨rfl, rfl⟩
  split at h
  · cases h
    exact .inl ⟨rfl, rfl⟩
  · cases h
    exact .inr ⟨rfl, rfl⟩

theorem memcpyAt_zero (frame : List UInt8) (sta : McastSta) :
    Bytes.memcpyAt frame 0 sta.addr.toList = unicastTo frame sta := by
  rw [Bytes.memcpyAt, Vector.length_toList]
  rfl

theorem changeDa_cases (h : changeDa fails mem skb sta = (r, mem')) :
    (r = none ∧ mem'.heap = mem.heap) ∨
      (r = some (mem.heap.unshare skb).1 ∧ mem'.heap = (mem.heap.unshare skb).2.write
        (mem.heap.unshare skb).1 (unicastTo (mem.heap.data skb) sta)) := by
  rw [changeDa] at h
  split at h
  · rename_i mem₁ hnone
    cases h
    rcases skbEnsureWritable_cases hnone with ⟨-, hheap⟩ | ⟨hsome, -⟩
    · exact .inl ⟨rfl, hheap⟩
    · cases hsome
  · rename_i skb₁ mem₁ hsome
    cases h
    rcases skbEnsureWritable_cases hsome with ⟨hnone, -⟩ | ⟨hskb, hheap⟩
    · cases hnone
    · cases hskb
      refine .inr ⟨rfl, ?_⟩
      rw [memcpyAt_zero, hheap, Sharing.Heap.data_unshare_self]

end Rewriting

/-! ### The loop -/

section Loop

variable {fails : ℕ → Bool} {sdata : SdataId} {skb : ℕ} {frame : List UInt8}
  {stas done : List McastSta} {s : ConvState}

/-- The frame is as it was, and there is a copy for each station so far but the first. -/
structure ConvInv (skb : ℕ) (frame : List UInt8) (done : List McastSta) (s : ConvState) : Prop where
  live : s.mem.Live skb
  data : s.mem.heap.data skb = frame
  first : s.first = done.head?
  queue : ∀ b ∈ s.queue, b < s.mem.heap.next ∧ b ≠ skb
  copies : s.queue.map s.mem.heap.data = done.tail.map (unicastTo frame)

theorem ConvInv.clone (h : ConvInv skb frame done s) (hdone : done ≠ []) {sta : McastSta}
    {cloned cloned' : ℕ} {mem mem' : SkbMem} (hclone : skbClone fails s.mem skb = (some cloned, mem))
    (hda : changeDa fails mem cloned sta = (some cloned', mem')) :
    ConvInv skb frame (done ++ [sta]) { s with
      mem := mem'
      queue := s.queue ++ [cloned'] } := by
  obtain ⟨hlt, hpos⟩ := h.live
  rcases skbClone_cases hclone with ⟨hnone, -⟩ | ⟨hskb, hheap⟩
  · cases hnone
  obtain rfl := Option.some.inj hskb
  rcases changeDa_cases hda with ⟨hnone, -⟩ | ⟨hskb', hheap'⟩
  · cases hnone
  rw [hheap, Sharing.Heap.unshare_share hpos] at hskb' hheap'
  obtain rfl := Option.some.inj hskb'
  rw [Sharing.Heap.data_share, h.data] at hheap'
  have hdata : ∀ b < s.mem.heap.next, mem'.heap.data b = s.mem.heap.data b := by
    intro b hb
    rw [hheap', Sharing.Heap.write_data_of_ne _ (Nat.ne_of_lt hb), Sharing.Heap.data_copy hb]
  have hnext : mem'.heap.next = s.mem.heap.next + 1 := by
    rw [hheap']
    rfl
  refine ⟨⟨?_, ?_⟩, ?_, ?_, ?_, ?_⟩
  · change cloned < mem'.heap.next
    omega
  · change 0 < mem'.heap.refs cloned
    rw [hheap']
    change 0 < (s.mem.heap.copy cloned).refs cloned
    rw [Sharing.Heap.refs_copy hlt]
    exact hpos
  · exact (hdata _ hlt).trans h.data
  · change s.first = (done ++ [sta]).head?
    rw [List.head?_append_of_ne_nil done hdone, h.first]
  · intro b hb
    rcases mem_append.mp hb with hb | hb
    · obtain ⟨hblt, hbne⟩ := h.queue b hb
      exact ⟨by change b < mem'.heap.next; omega, hbne⟩
    · obtain rfl := mem_singleton.mp hb
      exact ⟨by change s.mem.heap.next < mem'.heap.next; omega, Nat.ne_of_gt hlt⟩
  · change (s.queue ++ [s.mem.heap.next]).map mem'.heap.data = (done ++ [sta]).tail.map (unicastTo frame)
    rw [map_append, map_congr_left fun b hb => hdata b (h.queue b hb).1, h.copies,
      tail_append_of_ne_nil hdone, map_append, map_singleton, map_singleton, hheap',
      Sharing.Heap.write_data_self]

/-- The loop ends with a copy for each station but the first, or it jumps out, and the frame is as it
was. -/
theorem ConvInv.loop {s' : ConvState} {ok : Bool} (h : ConvInv skb frame done s)
    (hloop : convertLoop fails sdata skb stas s = (s', ok)) :
    (ok = true ∧ ConvInv skb frame (done ++ mcastReceivers stas sdata frame) s') ∨
      (ok = false ∧ s'.mem.heap.data skb = frame) := by
  induction stas generalizing s done with
  | nil =>
    cases hloop
    refine .inl ⟨rfl, ?_⟩
    rw [mcastReceivers, filter_nil, append_nil]
    exact h
  | cons sta stas ih =>
    rw [convertLoop, h.data] at hloop
    split at hloop
    · rename_i hother
      rw [mcastReceivers, filter_cons_of_neg (by simp [hother])]
      exact ih h hloop
    rename_i hmine
    rw [not_not] at hmine
    split at hloop
    · rename_i hsource
      rw [mcastReceivers, filter_cons_of_neg (by simp [hsource])]
      exact ih h hloop
    rename_i hsource
    rw [mcastReceivers, filter_cons_of_pos (by simp [hmine, hsource]), append_cons]
    split at hloop
    · rename_i hfirst
      have hnil : done = [] := List.head?_eq_none_iff.mp (h.first.symm.trans hfirst)
      subst hnil
      have hinv : ConvInv skb frame ([] ++ [sta]) { s with first := some sta } :=
        ⟨h.live, h.data, rfl, h.queue, h.copies⟩
      exact ih hinv hloop
    rename_i first hfirst
    have hdone : done ≠ [] := by
      rintro rfl
      exact absurd (hfirst.symm.trans h.first) (by simp)
    split at hloop
    · rename_i mem hclone
      cases hloop
      rcases skbClone_cases hclone with ⟨-, hheap⟩ | ⟨hsome, -⟩
      · exact .inr ⟨rfl, by rw [hheap, h.data]⟩
      · cases hsome
    rename_i cloned mem hclone
    split at hloop
    · rename_i mem' hda
      cases hloop
      refine .inr ⟨rfl, ?_⟩
      rcases skbClone_cases hclone with ⟨hnone, -⟩ | ⟨-, hheap⟩
      · cases hnone
      rcases changeDa_cases hda with ⟨-, hheap'⟩ | ⟨hsome, -⟩
      · change (mem'.heap.release cloned).data skb = frame
        rw [Sharing.Heap.data_release, hheap', hheap, Sharing.Heap.data_share, h.data]
      · cases hsome
    · rename_i cloned' mem' hda
      exact ih (h.clone hdone hclone hda) hloop

end Loop

/-! ### All or nothing -/

section Result

variable {staList : List McastSta} {sdata : SdataId} {mem : SkbMem} {skb : ℕ} {fails : ℕ → Bool}

theorem data_foldl_release (queue : List ℕ) (heap : Sharing.Heap (List UInt8)) :
    (queue.foldl (fun heap b => heap.release b) heap).data = heap.data := by
  induction queue generalizing heap with
  | nil => rfl
  | cons b queue ih => exact ih (heap.release b)

theorem map_data_toMulticast (skb : ℕ) (queue : List ℕ) (mem : SkbMem) :
    (toMulticast skb queue mem).1.map (toMulticast skb queue mem).2.heap.data = [mem.heap.data skb] := by
  change [(queue.foldl (fun heap b => heap.release b) mem.heap).data skb] = _
  rw [data_foldl_release]

/-- The queue has a copy of the frame for each station of the interface but the source, with its
address, or the frame as it was. -/
theorem convertToUnicast_all_or_nothing (fails : ℕ → Bool) (staList : List McastSta) (sdata : SdataId)
    (hskb : mem.Live skb) {queue : List ℕ} {mem' : SkbMem}
    (h : convertToUnicast fails staList sdata mem skb = (queue, mem')) :
    (queue.map mem'.heap.data).Perm
        ((mcastReceivers staList sdata (mem.heap.data skb)).map (unicastTo (mem.heap.data skb))) ∨
      queue.map mem'.heap.data = [mem.heap.data skb] := by
  have hstart : ConvInv skb (mem.heap.data skb) [] { mem := mem } :=
    ⟨hskb, rfl, rfl, fun b hb => absurd hb not_mem_nil, rfl⟩
  rw [convertToUnicast] at h
  split at h
  · rename_i s hloop
    rcases hstart.loop hloop with ⟨hok, -⟩ | ⟨-, hdata⟩
    · cases hok
    · cases h
      exact .inr ((map_data_toMulticast ..).trans (by rw [hdata]))
  rename_i s hloop
  rcases hstart.loop hloop with ⟨-, hinv⟩ | ⟨hok, -⟩
  swap
  · cases hok
  rw [nil_append] at hinv
  split at h
  · rename_i hfirst
    cases h
    have hnil := List.head?_eq_none_iff.mp (hinv.first.symm.trans hfirst)
    refine .inl ?_
    change (s.queue.map (s.mem.heap.release skb).data).Perm _
    rw [Sharing.Heap.data_release, hinv.copies, hnil]
    exact .refl _
  rename_i first hfirst
  split at h
  · rename_i mem₁ hda
    cases h
    rcases changeDa_cases hda with ⟨-, hheap⟩ | ⟨hsome, -⟩
    · exact .inr ((map_data_toMulticast ..).trans (by rw [hheap, hinv.data]))
    · cases hsome
  · rename_i skb' mem₁ hda
    obtain ⟨rfl, rfl⟩ := Prod.mk.inj h
    refine .inl ?_
    rcases changeDa_cases hda with ⟨hnone, -⟩ | ⟨hsome, hheap⟩
    · cases hnone
    cases hsome
    obtain ⟨others, hothers⟩ := List.head?_eq_some_iff.mp (hinv.first.symm.trans hfirst)
    have hdata : ∀ b ∈ s.queue, mem₁.heap.data b = s.mem.heap.data b := by
      intro b hb
      obtain ⟨hlt, hne⟩ := hinv.queue b hb
      rw [hheap, Sharing.Heap.write_data_of_ne _ (Sharing.Heap.unshare_ne hlt hne),
        Sharing.Heap.data_unshare hlt]
    rw [map_append, map_congr_left hdata, hinv.copies, map_singleton, hheap,
      Sharing.Heap.write_data_self, hinv.data, hothers]
    exact perm_append_singleton _ _

/-- A frame of 15 octets to a group, from `02:00:00:00:00:03`. -/
def groupFrame : List UInt8 := [1, 0, 0x5e, 0, 0, 1, 2, 0, 0, 0, 0, 3, 8, 0, 42]

/-- A station of interface 0. -/
def toyMcastSta (n : UInt8) : McastSta := ⟨0, localMac n⟩

/-- The source and two other stations: each of the two gets a copy. -/
theorem convertToUnicast_all_or_nothing_pair :
    let mem : SkbMem := { heap := { data := fun _ => groupFrame, refs := fun _ => 1, next := 1 } }
    let r := convertToUnicast (fun _ => false) [toyMcastSta 1, toyMcastSta 2, toyMcastSta 3] 0 mem 0
    r.1.length = 2 ∧
      ((r.1.map r.2.heap.data).Perm ((mcastReceivers [toyMcastSta 1, toyMcastSta 2, toyMcastSta 3] 0
          groupFrame).map (unicastTo groupFrame)) ∨
        r.1.map r.2.heap.data = [groupFrame]) := by
  intro mem r
  have hlive : mem.Live 0 := ⟨Nat.one_pos, Nat.one_pos⟩
  refine ⟨by decide +kernel, ?_⟩
  exact @convertToUnicast_all_or_nothing mem 0 (fun _ => false) [toyMcastSta 1, toyMcastSta 2, toyMcastSta 3] 0
    hlive r.1 r.2 rfl

end Result

end Mac80211
