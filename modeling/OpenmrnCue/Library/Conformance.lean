import OpenmrnCue.Library.Trace

/-! Machines whose log is a trace of another system.  The system is a relation between a state, an
event and a state.  A machine that reacts to inputs conforms to it where each reaction is matched:
from a state of the system that stands for the state of the machine, the events of the reaction lead
to one that stands for the next state.  Then so does the log of a run. -/

namespace Conformance

variable {σ ε ε' α ι : Type*}

/-- Events that lead from a state to another. -/
inductive Steps (tr : σ → ε → σ → Prop) : σ → List ε → σ → Prop
  | nil (s : σ) : Steps tr s [] s
  | cons {s u v : σ} {e : ε} {events : List ε} : tr s e u → Steps tr u events v →
      Steps tr s (e :: events) v

section Steps

variable {tr : σ → ε → σ → Prop} {s u v : σ} {e : ε} {events events' : List ε}

theorem Steps.append (h : Steps tr s events u) (h' : Steps tr u events' v) :
    Steps tr s (events ++ events') v := by
  induction h with
  | nil s => exact h'
  | cons he _ ih => exact .cons he (ih h')

theorem Steps.single (h : tr s e u) : Steps tr s [e] u := .cons h (.nil u)

/-- Events that each lead back to where they come from. -/
theorem steps_refl (h : ∀ e ∈ events, tr s e s) : Steps tr s events s := by
  induction events with
  | nil => exact .nil s
  | cons e events ih =>
    exact .cons (h e List.mem_cons_self) (ih fun e he => h e (List.mem_cons_of_mem _ he))

/-- What holds after an event holds at the end, if all events keep it. -/
theorem Steps.invariant {I : σ → Prop} (hstep : ∀ s e u, tr s e u → I s → I u)
    (h : Steps tr s events u) (hs : I s) : I u := by
  induction h with
  | nil s => exact hs
  | cons he _ ih => exact ih (hstep _ _ _ he hs)

/-- A system that takes notice of some events only. -/
def Hide (f : ε → Option ε') (tr : σ → ε' → σ → Prop) (s : σ) (e : ε) (u : σ) : Prop :=
  match f e with
  | none => u = s
  | some e' => tr s e' u

theorem steps_hide {f : ε → Option ε'} {tr : σ → ε' → σ → Prop} :
    Steps (Hide f tr) s events u ↔ Steps tr s (events.filterMap f) u := by
  constructor
  · intro h
    induction h with
    | nil s => exact .nil s
    | @cons s u v e events he _ ih =>
      unfold Hide at he
      cases hf : f e with
      | none =>
        rw [hf] at he
        rw [List.filterMap_cons_none hf, ← he]
        exact ih
      | some e' =>
        rw [hf] at he
        rw [List.filterMap_cons_some hf]
        exact .cons he ih
  · intro h
    induction events generalizing s with
    | nil =>
      cases h
      exact .nil _
    | cons e events ih =>
      cases hf : f e with
      | none =>
        rw [List.filterMap_cons_none hf] at h
        refine .cons ?_ (ih h)
        rw [Hide, hf]
      | some e' =>
        rw [List.filterMap_cons_some hf] at h
        cases h with
        | cons he hrest =>
          refine .cons ?_ (ih hrest)
          rw [Hide, hf]
          exact he

end Steps

/-! ### Machines -/

/-- The events of a part of a machine are matched by the system; `R` tells for which states of the
machine a state of the system stands. -/
def Conforms (tr : σ → ε → σ → Prop) (R : α → σ → Prop) (m : α) (r : α × List ε) : Prop :=
  ∀ s, R m s → ∃ u, Steps tr s r.2 u ∧ R r.1 u

variable {tr : σ → ε → σ → Prop} {R : α → σ → Prop}

theorem Conforms.append {m : α} {r q : α × List ε} (h : Conforms tr R m r)
    (h' : Conforms tr R r.1 q) : Conforms tr R m (q.1, r.2 ++ q.2) := by
  intro s hs
  obtain ⟨u, hsu, hu⟩ := h s hs
  obtain ⟨v, huv, hv⟩ := h' u hu
  exact ⟨v, hsu.append huv, hv⟩

/-- A step that the system takes no notice of. -/
theorem conforms_of_same {m m' : α} {events : List ε} (hR : ∀ s, R m s → R m' s)
    (hevents : ∀ s, R m s → ∀ e ∈ events, tr s e s) : Conforms tr R m (m', events) :=
  fun s hs => ⟨s, steps_refl (hevents s hs), hR s hs⟩

/-- One event. -/
theorem conforms_of_event {m m' : α} {e : ε} (h : ∀ s, R m s → ∃ u, tr s e u ∧ R m' u) :
    Conforms tr R m (m', [e]) := by
  intro s hs
  obtain ⟨u, he, hu⟩ := h s hs
  exact ⟨u, .single he, hu⟩

/-- The machine with the log of its events. -/
def logged (react : α → ι → Option (α × List ε)) (s : α × List ε) (input : ι) :
    Option (α × List ε) :=
  (react s.1 input).map fun r => (r.1, s.2 ++ r.2)

/-- If each reaction conforms, the log of a run is a trace of the system. -/
theorem steps_of_run {react : α → ι → Option (α × List ε)}
    (hreact : ∀ m input r, react m input = some r → Conforms tr R m r) {m m' : α} {s : σ}
    (hs : R m s) {inputs : List ι} {log : List ε}
    (hrun : Trace.run (logged react) (m, []) inputs = some (m', log)) :
    ∃ u, Steps tr s log u ∧ R m' u := by
  have hall : Conforms tr R m (m', log) := by
    refine Trace.invariant_of_step (I := fun _ r => Conforms tr R m r)
      (fun s hs => ⟨s, .nil s, hs⟩) ?_ hrun
    rintro past input ⟨m, log⟩ u hlog hstep
    obtain ⟨r, hr, rfl⟩ := Option.map_eq_some_iff.mp hstep
    exact hlog.append (hreact m input r hr)
  exact hall s hs

end Conformance
