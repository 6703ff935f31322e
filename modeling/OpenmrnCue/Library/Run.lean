import Mathlib.Logic.Relation

/-! Runs of a deterministic machine.  A machine is a function `step : σ → σ ⊕ ρ` that takes a state
to the next state or to the result with which the machine halts.  `run` iterates it with fuel;
`Reaches` and `Halts` say the same without fuel, and an invariant of one step is an invariant of
every state that a run visits. -/

namespace Run

variable {σ ρ : Type*}

/-- The result after at most `fuel` steps, if the machine halts by then. -/
def run (step : σ → σ ⊕ ρ) : Nat → σ → Option ρ
  | 0, _ => none
  | fuel + 1, s =>
    match step s with
    | .inl s' => run step fuel s'
    | .inr r => some r

/-- `t` is visited by the run from `s`. -/
def Reaches (step : σ → σ ⊕ ρ) : σ → σ → Prop :=
  Relation.ReflTransGen fun s t => step s = .inl t

/-- The run from `s` halts with `r`. -/
def Halts (step : σ → σ ⊕ ρ) (s : σ) (r : ρ) : Prop :=
  ∃ t, Reaches step s t ∧ step t = .inr r

variable {step : σ → σ ⊕ ρ}

theorem Reaches.refl (s : σ) : Reaches step s s := Relation.ReflTransGen.refl

theorem Reaches.single {s t : σ} (h : step s = .inl t) : Reaches step s t :=
  Relation.ReflTransGen.single h

theorem Reaches.trans {s t u : σ} (h1 : Reaches step s t) (h2 : Reaches step t u) :
    Reaches step s u :=
  Relation.ReflTransGen.trans h1 h2

theorem Reaches.head {s t u : σ} (h1 : step s = .inl t) (h2 : Reaches step t u) :
    Reaches step s u :=
  Relation.ReflTransGen.head h1 h2

theorem Reaches.tail {s t u : σ} (h1 : Reaches step s t) (h2 : step t = .inl u) :
    Reaches step s u :=
  Relation.ReflTransGen.tail h1 h2

theorem Halts.of_step {s : σ} {r : ρ} (h : step s = .inr r) : Halts step s r :=
  ⟨s, Reaches.refl s, h⟩

theorem Halts.of_reaches {s t : σ} {r : ρ} (h1 : Reaches step s t) (h2 : Halts step t r) :
    Halts step s r := by
  obtain ⟨u, hu, hr⟩ := h2
  exact ⟨u, h1.trans hu, hr⟩

theorem Halts.head {s t : σ} {r : ρ} (h1 : step s = .inl t) (h2 : Halts step t r) :
    Halts step s r :=
  Halts.of_reaches (Reaches.single h1) h2

/-- A run that has reached `t` halts as the run from `t` does. -/
theorem Halts.from_reached {s t : σ} {r : ρ} (h1 : Reaches step s t) (h2 : Halts step s r) :
    Halts step t r := by
  induction h1 using Relation.ReflTransGen.head_induction_on with
  | refl => exact h2
  | head hstep _ ih =>
    obtain ⟨u, hu, hr⟩ := h2
    rcases hu.cases_head with rfl | ⟨v, hv, hvu⟩
    · rw [hstep] at hr; cases hr
    · rw [hstep] at hv
      cases hv
      exact ih ⟨u, hvu, hr⟩

theorem Halts.unique {s : σ} {r r' : ρ} (h : Halts step s r) (h' : Halts step s r') : r = r' := by
  obtain ⟨t, ht, hr⟩ := h
  obtain ⟨u, hu, hr'⟩ := Halts.from_reached ht h'
  rcases hu.cases_head with rfl | ⟨v, hv, _⟩
  · rw [hr] at hr'; exact Sum.inr.inj hr'
  · rw [hr] at hv; cases hv

theorem Halts.of_run {fuel : Nat} {s : σ} {r : ρ} (h : run step fuel s = some r) :
    Halts step s r := by
  induction fuel generalizing s with
  | zero => cases h
  | succ fuel ih =>
    rw [run] at h
    split at h
    · next s' hs => exact Halts.head hs (ih h)
    · next r' hs => cases h; exact Halts.of_step hs

/-- Enough fuel gives the result of a run that halts. -/
theorem Halts.run {s : σ} {r : ρ} (h : Halts step s r) : ∃ fuel, run step fuel s = some r := by
  obtain ⟨t, ht, hr⟩ := h
  induction ht using Relation.ReflTransGen.head_induction_on with
  | refl => exact ⟨1, by simp [Run.run, hr]⟩
  | head hstep _ ih =>
    obtain ⟨fuel, hfuel⟩ := ih
    exact ⟨fuel + 1, by simp [Run.run, hstep, hfuel]⟩

/-- What every step preserves holds in every state of a run. -/
theorem Reaches.invariant {I : σ → Prop} (hstep : ∀ s t, I s → step s = .inl t → I t) {s t : σ}
    (h : Reaches step s t) (hs : I s) : I t := by
  induction h with
  | refl => exact hs
  | tail _ hst ih => exact hstep _ _ ih hst

end Run
