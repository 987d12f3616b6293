import Mathlib.Data.List.Basic

/-!
# Runs of a partial machine with outputs

From a state and an event, `step : σ → ι → Option (σ × List ω)` either faults, or moves on and emits
some outputs. `run` folds it over a list of events and can be evaluated. `Reach step C s₀` is an
inductive predicate on the state reached and the outputs so far, every step of which meets `C`.

## Main definitions

* `run`, `Reach`, `Meets`

## Main results

* `Reach.invariant` — what every step keeps holds of every run
-/

namespace Machine

variable {σ ι ω : Type*}

/-- Run `step` over a list of events, collecting the outputs. A fault ends the run. -/
def run (step : σ → ι → Option (σ × List ω)) : σ → List ι → Option (σ × List ω)
  | s, [] => some (s, [])
  | s, e :: es =>
    match step s e with
    | none => none
    | some (s₁, o₁) =>
      match run step s₁ es with
      | none => none
      | some (s₂, o₂) => some (s₂, o₁ ++ o₂)

/-- One run after another. -/
theorem run_append {step : σ → ι → Option (σ × List ω)} {s s₁ s₂ : σ} {es es' : List ι} {o₁ o₂ : List ω}
    (h : run step s es = some (s₁, o₁)) (h' : run step s₁ es' = some (s₂, o₂)) :
    run step s (es ++ es') = some (s₂, o₁ ++ o₂) := by
  induction es generalizing s o₁ with
  | nil =>
    simp only [run] at h
    cases h
    exact h'
  | cons e es ih =>
    rw [run] at h
    split at h
    · cases h
    · rename_i s' o hs
      split at h
      · cases h
      · rename_i s'' o' hr
        cases h
        rw [List.cons_append, run, hs]
        dsimp only
        rw [ih hr, List.append_assoc]

/-- `Reach step C s₀ s os`: some sequence of steps, each meeting `C` where it is taken, leads from
`s₀` to `s` and emits `os`. -/
inductive Reach (step : σ → ι → Option (σ × List ω)) (C : σ → List ω → ι → Prop) (s₀ : σ) :
    σ → List ω → Prop
  | init : Reach step C s₀ s₀ []
  | step {s s' : σ} {os o : List ω} {e : ι} : Reach step C s₀ s os → C s os e →
      step s e = some (s', o) → Reach step C s₀ s' (os ++ o)

variable {step : σ → ι → Option (σ × List ω)} {C : σ → List ω → ι → Prop} {s₀ s : σ}
  {os : List ω}

/-- **The invariant rule.** What holds initially, and is kept by every step that meets the
condition, holds of every state reached. -/
theorem Reach.invariant (Inv : σ → List ω → Prop) (hinit : Inv s₀ [])
    (hstep : ∀ s os e s' o, Inv s os → C s os e → step s e = some (s', o) → Inv s' (os ++ o))
    (h : Reach step C s₀ s os) : Inv s os := by
  induction h with
  | init => exact hinit
  | step _ hC hs ih => exact hstep _ _ _ _ _ ih hC hs

/-- One run after another, under a condition that does not look at the history. -/
theorem Reach.trans {s' : σ} {os' : List ω} (hC : ∀ s os os' e, C s os e → C s os' e)
    (h : Reach step C s₀ s os) (h' : Reach step C s s' os') : Reach step C s₀ s' (os ++ os') := by
  induction h' with
  | init => simpa using h
  | step _ hc hs ih =>
    rw [← List.append_assoc]
    exact ih.step (hC _ _ _ _ hc) hs

/-- Every step of the run over these events meets the condition. -/
def Meets (step : σ → ι → Option (σ × List ω)) (C : σ → List ω → ι → Prop) :
    σ → List ω → List ι → Prop
  | _, _, [] => True
  | s, os, e :: es => C s os e ∧ ∀ s' o, step s e = some (s', o) → Meets step C s' (os ++ o) es

variable {es : List ι}

theorem Meets.mono {D : σ → List ω → ι → Prop} (hCD : ∀ s os e, C s os e → D s os e) :
    ∀ {s : σ} {os : List ω}, Meets step C s os es → Meets step D s os es := by
  induction es with
  | nil => exact fun _ => trivial
  | cons e es ih => exact fun h => ⟨hCD _ _ _ h.1, fun s' o hs => ih (h.2 s' o hs)⟩

instance decidableMeets [∀ s os e, Decidable (C s os e)] :
    ∀ (s : σ) (os : List ω) (es : List ι), Decidable (Meets step C s os es)
  | _, _, [] => isTrue trivial
  | s, os, e :: es =>
    match h : step s e with
    | none => decidable_of_iff (C s os e) (by simp [Meets, h])
    | some (s', o) =>
      have := decidableMeets s' (os ++ o) es
      decidable_of_iff (C s os e ∧ Meets step C s' (os ++ o) es) (by simp [Meets, h])

/-- An evaluated run whose steps meet the condition is a reachable state, whatever was reached and
emitted before it. -/
theorem Reach.of_run : ∀ {s s' : σ} {os o : List ω}, Reach step C s₀ s os →
    Meets step C s os es → run step s es = some (s', o) → Reach step C s₀ s' (os ++ o) := by
  induction es with
  | nil =>
    intro s s' os o h _ hr
    simp only [run] at hr
    cases hr
    simpa using h
  | cons e es ih =>
    intro s s' os o h hm hr
    rw [run] at hr
    split at hr
    · cases hr
    · rename_i s₁ o₁ hs
      split at hr
      · cases hr
      · rename_i s₂ o₂ hr₂
        cases hr
        rw [← List.append_assoc]
        exact ih (h.step hm.1 hs) (hm.2 s₁ o₁ hs) hr₂

/-- **Progress and invariant.** If no step that meets the condition faults, and each keeps the
invariant, a run whose steps meet the condition goes through. -/
theorem exists_run_of_meets (Inv : List ι → σ → List ω → Prop)
    (hstep : ∀ is s os e, Inv is s os → C s os e →
      ∃ s' o, step s e = some (s', o) ∧ Inv (is ++ [e]) s' (os ++ o)) :
    ∀ (es is : List ι) (s : σ) (os : List ω), Inv is s os → Meets step C s os es →
      ∃ s' o, run step s es = some (s', o) ∧ Inv (is ++ es) s' (os ++ o) := by
  intro es
  induction es with
  | nil =>
    intro is s os h _
    exact ⟨s, [], rfl, by simpa using h⟩
  | cons e es ih =>
    intro is s os h hm
    obtain ⟨s₁, o₁, hs₁, h₁⟩ := hstep is s os e h hm.1
    obtain ⟨s₂, o₂, hs₂, h₂⟩ := ih (is ++ [e]) s₁ (os ++ o₁) h₁ (hm.2 s₁ o₁ hs₁)
    refine ⟨s₂, o₁ ++ o₂, ?_, ?_⟩
    · rw [run, hs₁]
      dsimp only
      rw [hs₂]
    · rw [List.append_assoc, List.append_assoc] at h₂
      exact h₂

theorem meets_of_forall : ∀ (es : List ι) (s : σ) (os : List ω),
    (∀ e ∈ es, ∀ s os, C s os e) → Meets step C s os es
  | [], _, _, _ => trivial
  | e :: es, s, os, h => ⟨h e List.mem_cons_self s os, fun s' _ _ =>
      meets_of_forall es s' _ fun e' he' => h e' (List.mem_cons_of_mem _ he')⟩

/-- An evaluated run from the initial state. -/
theorem Reach.of_run_init (h : run step s₀ es = some (s, os)) :
    Reach step (fun _ _ _ => True) s₀ s os :=
  Reach.of_run .init (meets_of_forall es s₀ [] fun _ _ _ _ => trivial) h

end Machine
