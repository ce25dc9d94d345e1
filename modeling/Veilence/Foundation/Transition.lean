import Mathlib

/-!
# Runs of labelled transition systems

A labelled step relation, its runs under a condition on each step, and the
invariant rule: what every admitted step preserves holds in every reachable state.

Main results:

- Theorem {lit}`Run.invariant`: the invariant rule.
-/

namespace Veilence
namespace Foundation

variable {σ Λ : Type*}

/-- One step with some label that the condition admits. -/
def StepWhere (step : σ → Λ → σ → Prop) (ok : σ → Λ → Prop) (s s' : σ) : Prop :=
  ∃ l, step s l s' ∧ ok s l

/-- A run whose steps all meet the condition. -/
def Run (step : σ → Λ → σ → Prop) (ok : σ → Λ → Prop) : σ → σ → Prop :=
  Relation.ReflTransGen (StepWhere step ok)

namespace Run

variable {step : σ → Λ → σ → Prop} {ok : σ → Λ → Prop} {s s' s'' : σ}

/-- The empty run. -/
theorem refl (s : σ) : Run step ok s s :=
  Relation.ReflTransGen.refl

/-- A run followed by one more step. -/
theorem snoc (hrun : Run step ok s s') {l : Λ} (hstep : step s' l s'') (hok : ok s' l) :
    Run step ok s s'' :=
  hrun.tail ⟨l, hstep, hok⟩

/-- One run after another. -/
theorem trans (hrun : Run step ok s s') (hrest : Run step ok s' s'') : Run step ok s s'' :=
  Relation.ReflTransGen.trans hrun hrest

/-- What every admitted step preserves holds at the end of a run. -/
theorem invariant {I : σ → Prop} (hrun : Run step ok s s') (hinit : I s)
    (hpres : ∀ s l s', I s → ok s l → step s l s' → I s') : I s' := by
  induction hrun with
  | refl => exact hinit
  | tail _ hlast ih =>
      obtain ⟨l, hstep, hl⟩ := hlast
      exact hpres _ l _ ih hl hstep

end Run
end Foundation
end Veilence
