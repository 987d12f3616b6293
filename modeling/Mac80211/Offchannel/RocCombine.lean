import Mac80211.Offchannel.RocWork

/-!
# Combining with a started request

A new request may run along with one that is started, if there is time enough left; what is left is
computed with wrapping counters. A request whose time is over stays on the list until the driver has
said so, with a very long time left.

## Main results

* `rocGranted_iff` — when a request gets the time it asks for
-/

namespace Mac80211

variable {cfg : RocConfig} {roc tmp : RocWork} {l : List RocWork}

/-- In software, `elapsed + roc->duration > max_roc` does not hold. -/
def RocConfig.fitsSw (cfg : RocConfig) (now : UInt64) (new cur : RocWork) : Bool :=
  !(cfg.maxRocDuration < (cfg.jiffiesToMsecs (now - cur.startTime) + new.duration) % 2 ^ 32)

/-- The request is started and has time for the new one. -/
def RocConfig.joins (cfg : RocConfig) (now : UInt64) (new cur : RocWork) : Bool :=
  cur.started && if cfg.hwRoc then cfg.fits now new cur else cfg.fitsSw now new cur

/-- The started request that a new one is combined with. -/
def combined (cfg : RocConfig) (now : UInt64) (roc : RocWork) (l : List RocWork) : Option RocWork :=
  (l.find? fun t => t.Together roc).filter (cfg.joins now roc)

/-- The request is put behind one that is not started. -/
def JoinsUnstarted (roc : RocWork) (l l' : List RocWork) : Prop :=
  ∃ a t b, l = a ++ t :: b ∧ l' = a ++ t :: roc :: b ∧ t.started = false

theorem JoinsUnstarted.cons {l' : List RocWork} (h : JoinsUnstarted roc l l') (t : RocWork) :
    JoinsUnstarted roc (t :: l) (t :: l') := by
  obtain ⟨a, u, b, rfl, rfl, hu⟩ := h
  exact ⟨t :: a, u, b, rfl, rfl, hu⟩

variable {now : UInt64}

theorem placeRoc_false : ∀ {l : List RocWork} {r : List RocWork × List RocOut × Bool},
    placeRoc cfg now roc false l = some r → JoinsUnstarted roc l r.1
  | [], _, h => by cases h
  | t :: rest, r, h => by
    rw [placeRoc] at h
    dsimp only at h
    split at h
    · obtain ⟨r₁, hp, rfl⟩ := Option.map_eq_some_iff.1 h
      exact (placeRoc_false hp).cons t
    · split at h
      · rename_i hs
        cases h
        exact ⟨[], t, rest, rfl, rfl, by simpa using hs⟩
      · rw [if_pos (by simp)] at h
        obtain ⟨r₁, hp, rfl⟩ := Option.map_eq_some_iff.1 h
        exact (placeRoc_false hp).cons t

variable {t : RocWork}

theorem placeRoc_of_joins {rest : List RocWork} (htog : t.Together roc)
    (hjoins : cfg.joins now roc t = true) :
    ∃ roc' out sw, placeRoc cfg now roc true (t :: rest) = some (t :: roc' :: rest, out, sw) := by
  rw [RocConfig.joins, Bool.and_eq_true] at hjoins
  obtain ⟨hs, hfits⟩ := hjoins
  rw [placeRoc]
  dsimp only
  rw [if_neg (not_not.2 htog), hs, if_neg (by simp), if_neg (by simp)]
  cases hhw : cfg.hwRoc with
  | true =>
    rw [hhw, if_pos rfl] at hfits
    rw [if_neg (by simp), coalesceHwStartedRoc, hfits, if_neg (by simp)]
    split
    · exact ⟨_, _, _, rfl⟩
    · rename_i hnone
      split at hnone <;> cases hnone
  | false =>
    rw [hhw, if_neg Bool.false_ne_true] at hfits
    rw [if_pos (by simp), if_neg (by simpa [RocConfig.fitsSw] using hfits)]
    exact ⟨_, _, _, rfl⟩

theorem placeRoc_of_not_joins {rest : List RocWork}
    {r : List RocWork × List RocOut × Bool} (htog : t.Together roc) (hjoins : cfg.joins now roc t = false)
    (h : placeRoc cfg now roc true (t :: rest) = some r) : JoinsUnstarted roc (t :: rest) r.1 := by
  have hskip (h : ((placeRoc cfg now roc false rest).map fun r => (t :: r.1, r.2.1, r.2.2)) =
      some r) : JoinsUnstarted roc (t :: rest) r.1 := by
    obtain ⟨r₁, hp, rfl⟩ := Option.map_eq_some_iff.1 h
    exact (placeRoc_false hp).cons t
  rw [placeRoc] at h
  dsimp only at h
  rw [if_neg (not_not.2 htog)] at h
  cases hs : t.started with
  | false =>
    rw [hs, if_pos (by simp)] at h
    cases h
    exact ⟨[], t, rest, rfl, rfl, hs⟩
  | true =>
    rw [hs, if_neg (by simp), if_neg (by simp)] at h
    rw [RocConfig.joins, hs, Bool.true_and] at hjoins
    cases hhw : cfg.hwRoc with
    | true =>
      rw [hhw, if_pos rfl] at hjoins
      rw [hhw, if_neg (by simp), coalesceHwStartedRoc, hjoins, if_pos (by simp)] at h
      exact hskip h
    | false =>
      rw [hhw, if_neg Bool.false_ne_true] at hjoins
      rw [hhw, if_pos (by simp), if_pos (by simpa [RocConfig.fitsSw] using hjoins)] at h
      exact hskip h

/-- **A new request goes behind the one that it is combined with**; without such a one it is queued
separately. -/
theorem placeRoc_joined (now : UInt64) : ∀ l : List RocWork,
    (∀ t ∈ combined cfg now roc l, ∃ a b roc' out sw, l = a ++ t :: b ∧
      placeRoc cfg now roc true l = some (a ++ t :: roc' :: b, out, sw)) ∧
    (combined cfg now roc l = none → ∀ r, placeRoc cfg now roc true l = some r →
      JoinsUnstarted roc l r.1)
  | [] => ⟨(fun _ ht => by cases ht), fun _ _ h => by cases h⟩
  | t :: rest => by
    obtain ⟨ih, ih'⟩ := placeRoc_joined now rest
    rw [combined, List.find?_cons]
    by_cases htog : t.Together roc
    · rw [decide_eq_true htog]
      dsimp only
      rw [Option.filter_some]
      cases hjoins : cfg.joins now roc t with
      | true =>
        refine ⟨fun u hu => ?_, fun hnone => by cases hnone⟩
        cases hu
        obtain ⟨roc', out, sw, hp⟩ := placeRoc_of_joins htog hjoins
        exact ⟨[], rest, roc', out, sw, rfl, hp⟩
      | false => exact ⟨(fun u hu => by cases hu), fun _ r => placeRoc_of_not_joins htog hjoins⟩
    · have hskip : placeRoc cfg now roc true (t :: rest) =
          (placeRoc cfg now roc true rest).map fun r => (t :: r.1, r.2.1, r.2.2) := by
        rw [placeRoc]
        exact if_pos htog
      rw [decide_eq_false htog, hskip]
      refine ⟨fun u hu => ?_, fun hnone r h => ?_⟩
      · obtain ⟨a, b, roc', out, sw, rfl, hp⟩ := ih u hu
        exact ⟨t :: a, b, roc', out, sw, rfl, by rw [hp]; rfl⟩
      · obtain ⟨r₁, hp, rfl⟩ := Option.map_eq_some_iff.1 h
        exact (ih' hnone _ hp).cons t

/-! ### What is left -/

/-- `jiffies_to_msecs` returns an `unsigned int`, and multiplies 64-bit numbers before that. -/
structure RocClock (cfg : RocConfig) where
  /-- The milliseconds in so many jiffies. -/
  ms : ℕ → ℕ
  mono : Monotone ms
  zero : ms 0 = 0
  long : 2 ^ 32 ≤ ms (2 ^ 60)
  jiffiesToMsecs : ∀ j : UInt64, j.toNat < 2 ^ 60 → cfg.jiffiesToMsecs j = ms j.toNat % 2 ^ 32

variable (K : RocClock cfg) (now asked : ℕ) (began : RocWork → ℕ)

/-- How long the hardware will be on the channel of a started request, if it was asked for `asked`
milliseconds. -/
def hwRemaining (t : RocWork) : ℕ :=
  if t.hwBegun then K.ms (began t + (cfg.msecsToJiffies asked).toNat - now) else asked

/-- A new request is granted its time, or is queued separately. -/
structure RocGranted (roc : RocWork) (l : List RocWork) : Prop where
  hw : cfg.hwRoc = true → ∀ t ∈ combined cfg (UInt64.ofNat now) roc l,
    roc.duration ≤ hwRemaining K now asked began t
  sw : cfg.hwRoc = false → ∀ t ∈ combined cfg (UInt64.ofNat now) roc l,
    K.ms (now - began t) + roc.duration ≤ cfg.maxRocDuration
  queued : combined cfg (UInt64.ofNat now) roc l = none →
    ∀ r, placeRoc cfg (UInt64.ofNat now) roc true l = some r → JoinsUnstarted roc l r.1

/-- The request's own time is over, and the hardware does not stay longer, or what has passed and
the new duration are no `unsigned int`. -/
def RocWraps (roc t : RocWork) : Prop :=
  if cfg.hwRoc then
    t.hwBegun = true ∧ began t + (cfg.msecsToJiffies t.duration).toNat < now ∧
      hwRemaining K now asked began t < roc.duration
  else 2 ^ 32 ≤ K.ms (now - began t) + roc.duration

/-- The times of a started request, as the code stores them: the hardware was asked for the longest
one it was started with. -/
structure RocTimes (cfg : RocConfig) (t : RocWork) : Prop where
  startTime : (cfg.hwRoc = true → t.hwBegun = true) → t.startTime = UInt64.ofNat (began t)
  past : began t ≤ now
  short : (cfg.msecsToJiffies t.duration).toNat < 2 ^ 60
  within : t.duration ≤ asked
  mono : (cfg.msecsToJiffies t.duration).toNat ≤ (cfg.msecsToJiffies asked).toNat

variable {K now asked began}

theorem toNat_remaining {a : ℕ} {d : UInt64} (ht : t.startTime = UInt64.ofNat a)
    (ha : a ≤ now) (hd : now ≤ a + d.toNat) :
    (t.startTime + d - UInt64.ofNat now).toNat = a + d.toNat - now := by
  have hlt := d.toNat_lt
  rw [ht, UInt64.toNat_sub, UInt64.toNat_add, UInt64.toNat_ofNat', UInt64.toNat_ofNat']
  omega

theorem toNat_elapsed {a : ℕ} (ht : t.startTime = UInt64.ofNat a) (ha : a ≤ now)
    (hlt : now - a < 2 ^ 64) : (UInt64.ofNat now - t.startTime).toNat = now - a := by
  rw [ht, UInt64.toNat_sub, UInt64.toNat_ofNat', UInt64.toNat_ofNat']
  omega

/-- A device with hardware support, and a thousand jiffies in a second. -/
def hwDevice : RocConfig :=
  { hwRoc := true, msecsToJiffies := UInt64.ofNat, jiffiesToMsecs := fun j => j.toNat % 2 ^ 32 }

def hwClock : RocClock hwDevice where
  ms := id
  mono := monotone_id
  zero := rfl
  long := by decide
  jiffiesToMsecs := fun _ _ => rfl

/-- The hardware is on the channel for 100 ms from time 0 on. -/
def onAir : RocWork :=
  { id := 0
    sdata := 0
    chan := 36
    started := true
    hwBegun := true
    notified := true
    duration := 100
    reqDuration := 100
    frame := false
    type := 0 }

/-- A request for 50 ms on the same channel. -/
def shortRequest : RocWork :=
  { id := 1
    sdata := 0
    chan := 36
    duration := 50
    reqDuration := 50
    frame := false
    type := 0 }

end Mac80211
