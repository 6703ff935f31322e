import Mathlib.Logic.Function.Iterate
import Mathlib.Logic.Relation

/-! Guarded operations that run one after the other, again and again, while their surroundings
change the state between any two tests and actions.  What the surroundings leave alone is a view of
the state.  If each operation keeps a property of the view from one operation to the next, and
another one at each of its actions, then these hold in every configuration of every run. -/

namespace Interference

/-- An operation: its actions are carried out in order if all its tests hold. -/
structure Guarded (T A : Type*) where
  tests : List T
  acts : List A

/-- What tests say and actions do. -/
structure Semantics (T A σ : Type*) where
  holds : T → σ → Bool
  apply : A → σ → σ

/-- What is left of the current operation, the operations after it, and the state. -/
structure Config (T A σ : Type*) where
  tests : List T
  acts : List A
  rest : List (Guarded T A)
  state : σ

variable {T A σ β : Type*}

/-- Between two runs. -/
def Config.idle (s : σ) : Config T A σ := ⟨[], [], [], s⟩

/-- A step of the surroundings, a test, an action, or the turn to the next operation. -/
inductive Step (sem : Semantics T A σ) (program : List (Guarded T A)) (rely : σ → σ → Prop) :
    Config T A σ → Config T A σ → Prop
  | surroundings {tests : List T} {acts : List A} {rest : List (Guarded T A)} {s s' : σ}
      (h : rely s s') : Step sem program rely ⟨tests, acts, rest, s⟩ ⟨tests, acts, rest, s'⟩
  | pass {t : T} {tests : List T} {acts : List A} {rest : List (Guarded T A)} {s : σ}
      (h : sem.holds t s = true) :
      Step sem program rely ⟨t :: tests, acts, rest, s⟩ ⟨tests, acts, rest, s⟩
  | fail {t : T} {tests : List T} {acts : List A} {rest : List (Guarded T A)} {s : σ}
      (h : sem.holds t s = false) :
      Step sem program rely ⟨t :: tests, acts, rest, s⟩ ⟨[], [], rest, s⟩
  | act {a : A} {acts : List A} {rest : List (Guarded T A)} {s : σ} :
      Step sem program rely ⟨[], a :: acts, rest, s⟩ ⟨[], acts, rest, sem.apply a s⟩
  | next {op : Guarded T A} {rest : List (Guarded T A)} {s : σ} :
      Step sem program rely ⟨[], [], op :: rest, s⟩ ⟨op.tests, op.acts, rest, s⟩
  | again {s : σ} : Step sem program rely ⟨[], [], [], s⟩ ⟨[], [], program, s⟩

/-- The configurations of all runs of the program from a state. -/
def Reaches (sem : Semantics T A σ) (program : List (Guarded T A)) (rely : σ → σ → Prop) :
    Config T A σ → Config T A σ → Prop :=
  Relation.ReflTransGen (Step sem program rely)

/-- The step that is not one of the surroundings. -/
def Config.next (sem : Semantics T A σ) (program : List (Guarded T A)) :
    Config T A σ → Config T A σ
  | ⟨t :: tests, acts, rest, s⟩ =>
    if sem.holds t s then ⟨tests, acts, rest, s⟩ else ⟨[], [], rest, s⟩
  | ⟨[], a :: acts, rest, s⟩ => ⟨[], acts, rest, sem.apply a s⟩
  | ⟨[], [], op :: rest, s⟩ => ⟨op.tests, op.acts, rest, s⟩
  | ⟨[], [], [], s⟩ => ⟨[], [], program, s⟩

/-- A run that the surroundings do not disturb. -/
theorem reaches_iterate (sem : Semantics T A σ) (program : List (Guarded T A)) (rely : σ → σ → Prop)
    (n : Nat) (c : Config T A σ) :
    Reaches sem program rely c ((Config.next sem program)^[n] c) := by
  induction n with
  | zero => exact Relation.ReflTransGen.refl
  | succ n ih =>
    rw [Function.iterate_succ_apply']
    refine ih.tail ?_
    generalize (Config.next sem program)^[n] c = c
    obtain ⟨tests, acts, rest, s⟩ := c
    cases tests with
    | cons t tests =>
      rw [Config.next]
      split
      · next h => exact .pass h
      · next h => exact .fail (by simpa using h)
    | nil =>
      cases acts with
      | cons a acts => exact .act
      | nil =>
        cases rest with
        | cons op rest => exact .next
        | nil => exact .again

/-- What the surroundings leave alone: which tests can hold, and what actions do there. -/
structure View (sem : Semantics T A σ) (rely : σ → σ → Prop) (β : Type*) where
  view : σ → β
  need : T → β → Prop
  act : A → β → β
  view_rely : ∀ {s s' : σ}, rely s s' → view s' = view s
  need_of_holds : ∀ {t : T} {s : σ}, sem.holds t s = true → need t (view s)
  view_apply : ∀ (a : A) (s : σ), view (sem.apply a s) = act a (view s)

/-- `safe` holds before each of the actions, and `settled` after the last. -/
def Keeps (act : A → β → β) (safe settled : β → Prop) : List A → β → Prop
  | [], b => settled b
  | a :: acts, b => safe b ∧ Keeps act safe settled acts (act a b)

section Keeps

variable {act : A → β → β} {safe settled : β → Prop} {acts : List A} {b : β}

@[simp] theorem keeps_nil : Keeps act safe settled [] b ↔ settled b := Iff.rfl

@[simp] theorem keeps_cons {a : A} :
    Keeps act safe settled (a :: acts) b ↔ safe b ∧ Keeps act safe settled acts (act a b) :=
  Iff.rfl

theorem Keeps.always (hsafe : ∀ b, settled b → safe b) (h : Keeps act safe settled acts b) :
    safe b := by
  cases acts with
  | nil => exact hsafe b h
  | cons a acts => exact h.1

/-- After the last of the actions. -/
theorem Keeps.last (h : Keeps act safe settled acts b) :
    settled (acts.foldl (fun b a => act a b) b) := by
  induction acts generalizing b with
  | nil => exact h
  | cons a acts ih => exact ih h.2

/-- Actions that keep `settled` one by one. -/
theorem keeps_of_each (hsafe : ∀ b, settled b → safe b)
    (hacts : ∀ a ∈ acts, ∀ b, settled b → settled (act a b)) (h : settled b) :
    Keeps act safe settled acts b := by
  induction acts generalizing b with
  | nil => exact h
  | cons a acts ih =>
    exact ⟨hsafe b h, ih (fun other hother => hacts other (List.mem_cons_of_mem _ hother))
      (hacts a List.mem_cons_self b h)⟩

end Keeps

section Runs

variable {sem : Semantics T A σ} {program : List (Guarded T A)} {rely : σ → σ → Prop}

/-- The operation keeps both properties from any settled view in which its tests can hold. -/
def View.Keeps (V : View sem rely β) (safe settled : β → Prop) (op : Guarded T A) : Prop :=
  ∀ b, settled b → (∀ t ∈ op.tests, V.need t b) → Interference.Keeps V.act safe settled op.acts b

/-- What holds of each configuration: while tests are left, the view is settled; and the actions are
kept if the tests that are left hold. -/
structure Good (V : View sem rely β) (program : List (Guarded T A)) (safe settled : β → Prop)
    (c : Config T A σ) : Prop where
  testing : c.tests ≠ [] → settled (V.view c.state)
  keeps : (∀ t ∈ c.tests, V.need t (V.view c.state)) →
    Keeps V.act safe settled c.acts (V.view c.state)
  rest : ∀ op ∈ c.rest, op ∈ program

variable {V : View sem rely β} {safe settled : β → Prop} {c c' : Config T A σ}

theorem Good.always (hsafe : ∀ b, settled b → safe b) (h : Good V program safe settled c) :
    safe (V.view c.state) := by
  by_cases htests : c.tests = []
  · exact (h.keeps (by simp [htests])).always hsafe
  · exact hsafe _ (h.testing htests)

/-- Every step keeps a configuration good. -/
theorem Good.step (hops : ∀ op ∈ program, V.Keeps safe settled op)
    (h : Good V program safe settled c) (hstep : Step sem program rely c c') :
    Good V program safe settled c' := by
  cases hstep with
  | surroundings hrely =>
    constructor
    case testing => simpa only [V.view_rely hrely] using h.testing
    case keeps => simpa only [V.view_rely hrely] using h.keeps
    case rest => exact h.rest
  | pass hholds =>
    constructor
    case testing => exact fun _ => h.testing (List.cons_ne_nil _ _)
    case keeps =>
      intro hneed
      refine h.keeps fun t ht => ?_
      rcases List.mem_cons.mp ht with rfl | ht
      · exact V.need_of_holds hholds
      · exact hneed t ht
    case rest => exact h.rest
  | fail _ => exact ⟨fun hne => absurd rfl hne, fun _ => h.testing (List.cons_ne_nil _ _), h.rest⟩
  | @act a acts rest s =>
    refine ⟨fun hne => absurd rfl hne, fun _ => ?_, h.rest⟩
    rw [V.view_apply]
    exact (h.keeps (by simp)).2
  | @next op rest s =>
    have hsettled : settled (V.view s) := h.keeps (by simp)
    exact ⟨fun _ => hsettled, hops op (h.rest op List.mem_cons_self) _ hsettled,
      fun other hother => h.rest other (List.mem_cons_of_mem _ hother)⟩
  | again => exact ⟨fun hne => absurd rfl hne, fun _ => h.keeps (by simp), fun _ hop => hop⟩

/-- Where each operation keeps both properties, all configurations of all runs are safe. -/
theorem Reaches.always (hsafe : ∀ b, settled b → safe b)
    (hops : ∀ op ∈ program, V.Keeps safe settled op) {s : σ} (hs : settled (V.view s))
    (h : Reaches sem program rely (.idle s) c) : safe (V.view c.state) := by
  have hgood : Good V program safe settled c := by
    induction h with
    | refl => exact ⟨fun hne => absurd rfl hne, fun _ => hs, by simp [Config.idle]⟩
    | tail _ hstep ih => exact ih.step hops hstep
  exact hgood.always hsafe

end Runs

end Interference
