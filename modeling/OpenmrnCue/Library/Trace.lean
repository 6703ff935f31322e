import Mathlib.Data.List.Induction

/-! Runs of a machine that reacts to inputs.  A machine is a function `step : σ → ι → Option σ` that
takes a state and an input to the next state, or to `none` where the input cannot come.  A history
is the list of the inputs so far; invariants may speak of the history as well as of the state, and
they may assume a condition that every step of the run meets. -/

namespace Trace

variable {σ ι : Type*}

/-- The state after a history, if each of its inputs could come when it did. -/
def run (step : σ → ι → Option σ) (s : σ) (history : List ι) : Option σ :=
  history.foldlM step s

/-- `P` holds of the history, the state before, the input and the state after at every step of the
run. -/
def EachStep (step : σ → ι → Option σ) (P : List ι → σ → ι → σ → Prop) (s : σ)
    (history : List ι) : Prop :=
  ∀ past i future t u, history = past ++ i :: future → run step s past = some t →
    step t i = some u → P past t i u

/-- `P` holds of the history and the state at every point of the run. -/
def Always (step : σ → ι → Option σ) (P : List ι → σ → Prop) (s : σ) (history : List ι) : Prop :=
  ∀ past future t, history = past ++ future → run step s past = some t → P past t

variable {step : σ → ι → Option σ} {s t u : σ} {i : ι} {history past future : List ι}

@[simp] theorem run_nil : run step s [] = some s := rfl

theorem run_cons : run step s (i :: history) = (step s i).bind (run step · history) := by
  simp [run, List.foldlM_cons]

theorem run_append : run step s (past ++ future) = (run step s past).bind (run step · future) := by
  simp [run, List.foldlM_append]

theorem run_concat : run step s (past ++ [i]) = (run step s past).bind (step · i) := by
  rw [run_append]
  congr 1
  funext t
  simp [run]

theorem run_concat_eq_some :
    run step s (past ++ [i]) = some u ↔ ∃ t, run step s past = some t ∧ step t i = some u := by
  rw [run_concat, Option.bind_eq_some_iff]

/-- A step of a run with one more step is that step or one before it. -/
theorem concat_eq_append_cons {before after : List ι} {j : ι}
    (h : past ++ [i] = before ++ j :: after) :
    before = past ∧ j = i ∧ after = [] ∨
      ∃ rest, past = before ++ j :: rest ∧ after = rest ++ [i] := by
  rcases List.eq_nil_or_concat after with rfl | ⟨rest, k, rfl⟩
  · obtain ⟨hpast, hlast⟩ := List.append_inj' h rfl
    cases hlast
    exact .inl ⟨hpast.symm, rfl, rfl⟩
  · rw [List.concat_eq_append, ← List.cons_append, ← List.append_assoc] at h
    obtain ⟨hpast, hlast⟩ := List.append_inj' h rfl
    cases hlast
    exact .inr ⟨rest, hpast, List.concat_eq_append⟩

theorem eachStep_nil {P : List ι → σ → ι → σ → Prop} : EachStep step P s [] := by
  intro past i future t u heq
  simp at heq

theorem EachStep.cons {P : List ι → σ → ι → σ → Prop} (hfirst : ∀ t, step s i = some t → P [] s i t)
    (hrest : ∀ t, step s i = some t → EachStep step (fun past => P (i :: past)) t future) :
    EachStep step P s (i :: future) := by
  intro past j after t u heq hrun hstep
  cases past with
  | nil =>
    cases heq
    cases hrun
    exact hfirst u hstep
  | cons _ past =>
    cases heq
    obtain ⟨s', hs', hrun⟩ := Option.bind_eq_some_iff.mp (run_cons ▸ hrun)
    exact hrest s' hs' past j after t u rfl hrun hstep

theorem EachStep.of_append {P : List ι → σ → ι → σ → Prop}
    (h : EachStep step P s (past ++ future)) : EachStep step P s past := by
  intro before i after t u heq hrun hstep
  exact h before i (after ++ future) t u (by simp [heq]) hrun hstep

theorem EachStep.last {P : List ι → σ → ι → σ → Prop} (h : EachStep step P s (past ++ [i]))
    (hrun : run step s past = some t) (hstep : step t i = some u) : P past t i u :=
  h past i [] t u rfl hrun hstep

/-- What holds of every step of a run and of one more step holds of every step of the longer run. -/
theorem EachStep.concat {P : List ι → σ → ι → σ → Prop} (h : EachStep step P s past)
    (hlast : ∀ t u, run step s past = some t → step t i = some u → P past t i u) :
    EachStep step P s (past ++ [i]) := by
  intro before j after t u heq hrun hstep
  rcases concat_eq_append_cons heq with ⟨rfl, rfl, _⟩ | ⟨after, rfl, _⟩
  · exact hlast t u hrun hstep
  · exact h before j after t u rfl hrun hstep

/-- A run with a step that breaks `P` has a first such step. -/
theorem EachStep.exists_first {P : List ι → σ → ι → σ → Prop} (h : ¬ EachStep step P s history) :
    ∃ past i future t u, history = past ++ i :: future ∧ EachStep step P s past ∧
      run step s past = some t ∧ step t i = some u ∧ ¬ P past t i u := by
  induction history using List.reverseRecOn with
  | nil =>
    refine absurd ?_ h
    intro past i future t u heq
    simp at heq
  | append_singleton history i ih =>
    by_cases hpast : EachStep step P s history
    · by_contra hnone
      refine h (hpast.concat fun t u hrun hstep => ?_)
      by_contra hP
      exact hnone ⟨history, i, [], t, u, rfl, hpast, hrun, hstep, hP⟩
    · obtain ⟨past, j, future, t, u, rfl, hbreak⟩ := ih hpast
      exact ⟨past, j, future ++ [i], t, u, by simp, hbreak⟩

theorem Always.of_append {P : List ι → σ → Prop} (h : Always step P s (past ++ future)) :
    Always step P s past := by
  intro before after t heq hrun
  exact h before (after ++ future) t (by simp [heq]) hrun

/-- A run in which `P` always holds goes on to a state of which `P` holds. -/
theorem Always.concat {P : List ι → σ → Prop} (h : Always step P s past)
    (hlast : ∀ t, run step s (past ++ [i]) = some t → P (past ++ [i]) t) :
    Always step P s (past ++ [i]) := by
  intro before after t heq hrun
  rcases List.eq_nil_or_concat after with rfl | ⟨after, j, rfl⟩
  · rw [List.append_nil] at heq
    subst heq
    exact hlast t hrun
  · rw [List.concat_eq_append, ← List.append_assoc] at heq
    exact h before after t (List.append_inj_left' heq rfl) hrun

/-- What holds at the start, and what every step that meets `P` preserves, holds after a run whose
steps all meet `P`. -/
theorem invariant {I : List ι → σ → Prop} {P : List ι → σ → ι → σ → Prop} (hstart : I [] s)
    (hstep : ∀ past i t u, run step s past = some t → I past t → P past t i u →
      step t i = some u → I (past ++ [i]) u)
    (heach : EachStep step P s history) (hrun : run step s history = some t) : I history t := by
  induction history using List.reverseRecOn generalizing t with
  | nil => cases hrun; exact hstart
  | append_singleton past i ih =>
    obtain ⟨u, hpast, hlast⟩ := run_concat_eq_some.mp hrun
    exact hstep past i u t hpast (ih heach.of_append hpast) (heach.last hpast hlast) hlast

/-- The invariant holds at every point of such a run. -/
theorem always {I : List ι → σ → Prop} {P : List ι → σ → ι → σ → Prop} (hstart : I [] s)
    (hstep : ∀ past i t u, run step s past = some t → I past t → P past t i u →
      step t i = some u → I (past ++ [i]) u)
    (heach : EachStep step P s history) : Always step I s history := by
  rintro past future t rfl hrun
  exact invariant hstart hstep heach.of_append hrun

/-- What every step preserves, whatever its input, holds after every run. -/
theorem invariant_of_step {I : List ι → σ → Prop} (hstart : I [] s)
    (hstep : ∀ past i t u, I past t → step t i = some u → I (past ++ [i]) u)
    (hrun : run step s history = some t) : I history t :=
  invariant (P := fun _ _ _ _ => True) hstart (fun past i t u _ hI _ => hstep past i t u hI)
    (fun _ _ _ _ _ _ _ _ => trivial) hrun

/-- Evaluates a condition on the state and the input along a run. -/
def check (step : σ → ι → Option σ) (p : σ → ι → Bool) : σ → List ι → Bool
  | _, [] => true
  | s, i :: rest =>
    match step s i with
    | none => true
    | some t => p s i && check step p t rest

theorem check_append {p : σ → ι → Bool} (hpast : run step s past = some t) :
    check step p s (past ++ future) = (check step p s past && check step p t future) := by
  induction past generalizing s with
  | nil =>
    cases hpast
    simp [check]
  | cons first rest ih =>
    obtain ⟨s', hs', hrest⟩ := Option.bind_eq_some_iff.mp (run_cons ▸ hpast)
    rw [List.cons_append, check, check, hs']
    simp only
    rw [ih hrest, Bool.and_assoc]

theorem eachStep_of_check {p : σ → ι → Bool} (h : check step p s history = true) :
    EachStep step (fun _ s i _ => p s i = true) s history := by
  induction history generalizing s with
  | nil =>
    intro past i future t u heq
    simp at heq
  | cons first rest ih =>
    intro past i future t u heq hrun hstep
    cases past with
    | nil =>
      cases heq
      cases hrun
      rw [check, hstep] at h
      exact (Bool.and_eq_true_iff.mp h).1
    | cons _ past =>
      cases heq
      obtain ⟨s', hs', hrun⟩ := Option.bind_eq_some_iff.mp hrun
      rw [check, hs'] at h
      exact ih (Bool.and_eq_true_iff.mp h).2 past i future t u rfl hrun hstep

end Trace
