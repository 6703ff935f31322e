import Mathlib.Data.Sum.Basic
import OpenmrnCue.Library.Run

/-! Two deterministic machines side by side.  If their steps match, then so do their runs: they halt
after equally many steps, or neither halts. -/

namespace Run

variable {σ τ ρ ρ' : Type*}

/-- Matching steps make matching runs. -/
theorem lockstep {R : σ → τ → Prop} {Q : ρ → ρ' → Prop} {step : σ → σ ⊕ ρ} {step' : τ → τ ⊕ ρ'}
    (hstep : ∀ s t, R s t → Sum.LiftRel R Q (step s) (step' t)) {s : σ} {t : τ} (h : R s t)
    (fuel : Nat) : Option.Rel Q (run step fuel s) (run step' fuel t) := by
  induction fuel generalizing s t with
  | zero => exact .none
  | succ fuel ih =>
    have hmatch := hstep s t h
    rw [run, run]
    cases hs : step s <;> cases ht : step' t <;> rw [hs, ht] at hmatch <;> cases hmatch
    · next hnext => exact ih hnext
    · next hend => exact .some hend

/-- The same where the first machine keeps to states of which `P` holds. -/
theorem lockstep_within {R : σ → τ → Prop} {Q : ρ → ρ' → Prop} {P : σ → Prop} {step : σ → σ ⊕ ρ}
    {step' : τ → τ ⊕ ρ'} (hstep : ∀ s t, R s t → P s → Sum.LiftRel R Q (step s) (step' t)) {s : σ}
    {t : τ} (h : R s t) (hP : ∀ u, Reaches step s u → P u) (fuel : Nat) :
    Option.Rel Q (run step fuel s) (run step' fuel t) := by
  refine lockstep (R := fun s t => R s t ∧ ∀ u, Reaches step s u → P u) ?_ ⟨h, hP⟩ fuel
  rintro s t ⟨h, hP⟩
  have hmatch := hstep s t h (hP s (.refl s))
  cases hs : step s <;> cases ht : step' t <;> rw [hs, ht] at hmatch <;> cases hmatch
  · next hnext => exact .inl ⟨hnext, fun u hu => hP u (.head hs hu)⟩
  · next hend => exact .inr hend

end Run
