/-! # Runs of a labelled transition system

    A development about a stateful component asks two kinds of question: what
    holds in every state a run can reach, and how the states of one system
    follow the states of another along a run.  This file states both once, for
    an arbitrary step relation:

    * `Run step s es t` — from `s`, performing the events `es` in order, the
      system reaches `t`;
    * `Run.invariant` — what holds at the start and is kept by every step holds
      at the end of every run;
    * `Run.mono_of_invariant` — and there the run may be one of another system;
    * `Run.simulates` — a step-by-step correspondence lifts to whole runs, and
      `Run.simulates_filterMap` likewise where some steps are silent above. -/

namespace LabelledRun

variable {σ ε τ : Type}

/-- `Run step s es t`: the events `es`, in order, lead from `s` to `t`. -/
inductive Run (step : σ → ε → σ → Prop) (s : σ) : List ε → σ → Prop where
  | nil : Run step s [] s
  | snoc {es : List ε} {t u : σ} (e : ε) :
      Run step s es t → step t e u → Run step s (es ++ [e]) u

variable {step : σ → ε → σ → Prop}

/-- **THE INVARIANT RULE**: what holds initially and is preserved by every
    step holds in every state reached. -/
theorem Run.invariant {I : σ → Prop} {s t : σ} {es : List ε}
    (h : Run step s es t) (h0 : I s)
    (hstep : ∀ a e b, I a → step a e b → I b) : I t := by
  induction h with
  | nil => exact h0
  | snoc e _ hst ih => exact hstep _ e _ ih hst

/-- One step is a run. -/
theorem Run.single {s t : σ} {e : ε} (h : step s e t) : Run step s [e] t :=
  Run.snoc e (Run.nil : Run step s [] s) h

/-- Runs compose. -/
theorem Run.append {s t u : σ} {es fs : List ε}
    (h1 : Run step s es t) (h2 : Run step t fs u) : Run step s (es ++ fs) u := by
  induction h2 with
  | nil => rw [List.append_nil]; exact h1
  | snoc e _ hst ih =>
      rw [← List.append_assoc]
      exact Run.snoc e ih hst

/-- A run of a restricted system is a run of the full one. -/
theorem Run.mono {step' : σ → ε → σ → Prop} {s t : σ} {es : List ε}
    (h : Run step s es t) (hsub : ∀ a e b, step a e b → step' a e b) :
    Run step' s es t := by
  induction h with
  | nil => exact Run.nil
  | snoc e _ hst ih => exact Run.snoc e ih (hsub _ _ _ hst)

/-- Under an invariant, a run of one system is a run of another. -/
theorem Run.mono_of_invariant {step' : σ → ε → σ → Prop} {I : σ → Prop} {s t : σ} {es : List ε}
    (h : Run step s es t) (h0 : I s)
    (hstep : ∀ a e b, I a → step a e b → I b ∧ step' a e b) : I t ∧ Run step' s es t := by
  induction h with
  | nil => exact ⟨h0, Run.nil⟩
  | snoc e _ hst ih =>
      obtain ⟨hI, hrun⟩ := ih
      obtain ⟨hI', hst'⟩ := hstep _ e _ hI hst
      exact ⟨hI', Run.snoc e hrun hst'⟩

/-- **THE SIMULATION RULE**: if every concrete step is matched by an abstract
    step with the same event, a whole concrete run is matched by an abstract
    run with the same events. -/
theorem Run.simulates {astep : τ → ε → τ → Prop} {R : σ → τ → Prop}
    {s t : σ} {es : List ε} {a : τ}
    (h : Run step s es t) (h0 : R s a)
    (hsim : ∀ c e c' b, R c b → step c e c' → ∃ b', astep b e b' ∧ R c' b') :
    ∃ b, Run astep a es b ∧ R t b := by
  induction h with
  | nil => exact ⟨a, Run.nil, h0⟩
  | snoc e _ hst ih =>
      obtain ⟨b, hrun, hR⟩ := ih
      obtain ⟨b', hstep, hR'⟩ := hsim _ e _ b hR hst
      exact ⟨b', Run.snoc e hrun hstep, hR'⟩

/-- The same where only the events that `f` keeps are steps of the abstract system. -/
theorem Run.simulates_filterMap {δ : Type} {astep : τ → δ → τ → Prop} (f : ε → Option δ)
    {R : σ → τ → Prop} {s t : σ} {es : List ε} {a : τ} (h : Run step s es t) (h0 : R s a)
    (hstep : ∀ c e c' b d, R c b → step c e c' → f e = some d → ∃ b', astep b d b' ∧ R c' b')
    (hsilent : ∀ c e c' b, R c b → step c e c' → f e = none → R c' b) :
    ∃ b, Run astep a (es.filterMap f) b ∧ R t b := by
  induction h with
  | nil => exact ⟨a, Run.nil, h0⟩
  | snoc e _ hst ih =>
      obtain ⟨b, hrun, hR⟩ := ih
      cases hf : f e with
      | none =>
          refine ⟨b, ?_, hsilent _ e _ b hR hst hf⟩
          rw [List.filterMap_append, List.filterMap_cons_none hf, List.filterMap_nil,
            List.append_nil]
          exact hrun
      | some d =>
          obtain ⟨b', hstep', hR'⟩ := hstep _ e _ b d hR hst hf
          refine ⟨b', ?_, hR'⟩
          rw [List.filterMap_append, List.filterMap_cons_some hf, List.filterMap_nil]
          exact Run.snoc d hrun hstep'

end LabelledRun
