import OpenmrnCue.Automata.Layout
import OpenmrnCue.Automata.Track

/-! The plugins of an automaton that is no track piece: the operations of the callbacks by their
numbers, over any variables. -/

namespace OpenmrnCue.Automata

/-- The callbacks of an `AutomataPlugin`, by increasing number. -/
abbrev Plugins (V : Type) := List (Nat × List (Op V Empty))

namespace Plugins

variable {V : Type}

/-- The constructor, with `HandleInitState`. -/
def init : Plugins V := [(10000, [⟨[.ifState stInit], [.actState stBase]⟩])]

/-- `AddAutomataPlugin`. -/
def addAutomataPlugin (plugins : Plugins V) (n : Nat) (ops : List (Op V Empty)) : Plugins V :=
  plugins.takeWhile (·.1 ≤ n) ++ (n, ops) :: plugins.dropWhile (·.1 ≤ n)

/-- Several calls of `AddAutomataPlugin`. -/
def addAll (plugins : Plugins V) (callbacks : List (Nat × List (Op V Empty))) : Plugins V :=
  callbacks.foldl (fun plugins p => plugins.addAutomataPlugin p.1 p.2) plugins

/-- `RunAll`. -/
def runAll (plugins : Plugins V) : List (Op V Empty) := plugins.flatMap (·.2)

theorem mem_addAutomataPlugin {plugins : Plugins V} {n : Nat} {ops : List (Op V Empty)}
    {p : Nat × List (Op V Empty)} :
    p ∈ plugins.addAutomataPlugin n ops ↔ p = (n, ops) ∨ p ∈ plugins := by
  conv_rhs => rw [← List.takeWhile_append_dropWhile (p := (·.1 ≤ n)) (l := plugins)]
  simp only [addAutomataPlugin, List.mem_append, List.mem_cons]
  tauto

/-- `HandleInitState` comes last, and the others render operations of these. -/
def Rendered (plugins : Plugins V) (P : List (Op V Empty) → Prop) : Prop :=
  ∃ front, plugins = front ++ init ∧ ∀ p ∈ front, P p.2

theorem rendered_init (P : List (Op V Empty) → Prop) : (init : Plugins V).Rendered P :=
  ⟨[], rfl, by simp⟩

/-- A callback with a smaller number comes before `HandleInitState`. -/
theorem Rendered.add {plugins : Plugins V} {P : List (Op V Empty) → Prop} (h : plugins.Rendered P)
    {n : Nat} (hn : n < 10000) {ops : List (Op V Empty)} (hops : P ops) :
    (plugins.addAutomataPlugin n ops).Rendered P := by
  obtain ⟨front, rfl, hfront⟩ := h
  have hlast : ∀ front : Plugins V, ∃ kept rest, kept ++ rest = front ∧
      (front ++ init).takeWhile (·.1 ≤ n) = kept ∧
      (front ++ init).dropWhile (·.1 ≤ n) = rest ++ init := by
    intro front
    induction front with
    | nil => exact ⟨[], [], rfl, by simp [init, hn], by simp [init, hn]⟩
    | cons p front ih =>
      obtain ⟨kept, rest, rfl, hkept, hrest⟩ := ih
      by_cases hp : p.1 ≤ n
      · exact ⟨p :: kept, rest, rfl, by simpa [hp] using hkept, by simpa [hp] using hrest⟩
      · exact ⟨[], p :: (kept ++ rest), rfl, by simp [hp], by simp [hp]⟩
  obtain ⟨kept, rest, rfl, hkept, hrest⟩ := hlast front
  refine ⟨kept ++ (n, ops) :: rest, ?_, fun p hp => ?_⟩
  · rw [addAutomataPlugin, hkept, hrest]
    simp
  rcases List.mem_append.mp hp with hp | hp
  · exact hfront p (List.mem_append_left _ hp)
  · rcases List.mem_cons.mp hp with rfl | hp
    · exact hops
    · exact hfront p (List.mem_append_right _ hp)

theorem Rendered.addAll {plugins : Plugins V} {P : List (Op V Empty) → Prop}
    {callbacks : List (Nat × List (Op V Empty))} (h : plugins.Rendered P)
    (hcallbacks : ∀ p ∈ callbacks, p.1 < 10000 ∧ P p.2) :
    (plugins.addAll callbacks).Rendered P := by
  induction callbacks generalizing plugins with
  | nil => exact h
  | cons p callbacks ih =>
    obtain ⟨hn, hops⟩ := hcallbacks p List.mem_cons_self
    exact ih (h.add hn hops) fun p' hp' => hcallbacks p' (List.mem_cons_of_mem _ hp')

theorem mem_addAll {plugins : Plugins V} {callbacks : List (Nat × List (Op V Empty))}
    {p : Nat × List (Op V Empty)} :
    p ∈ plugins.addAll callbacks ↔ p ∈ callbacks ∨ p ∈ plugins := by
  induction callbacks generalizing plugins with
  | nil => simp [addAll]
  | cons p' callbacks ih =>
    have hrest := @ih (plugins.addAutomataPlugin p'.1 p'.2)
    simp only [addAll, List.foldl_cons, List.mem_cons] at hrest ⊢
    rw [hrest, mem_addAutomataPlugin]
    tauto

/-- The operations of a callback are rendered in a row, before those of `HandleInitState`. -/
theorem Rendered.exists_runAll {plugins : Plugins V} {P : List (Op V Empty) → Prop}
    (h : plugins.Rendered P) : ∃ front, plugins.runAll =
      front ++ [⟨[.ifState stInit], [.actState stBase]⟩] ∧
      (∀ op ∈ front, ∃ ops, P ops ∧ op ∈ ops) ∧
      ∀ p ∈ plugins, p.1 < 10000 → ∃ before after, front = before ++ p.2 ++ after := by
  obtain ⟨front, rfl, hfront⟩ := h
  refine ⟨front.flatMap (·.2), by simp [runAll, init], fun op hop => ?_, fun p hp hn => ?_⟩
  · obtain ⟨p, hp, hop⟩ := List.mem_flatMap.mp hop
    exact ⟨p.2, hfront p hp, hop⟩
  · rcases List.mem_append.mp hp with hp | hp
    · obtain ⟨before, after, rfl⟩ := List.append_of_mem hp
      exact ⟨before.flatMap (·.2), after.flatMap (·.2), by simp⟩
    · obtain rfl := List.mem_singleton.mp hp
      exact absurd hn (Nat.lt_irrefl 10000)

end Plugins

end OpenmrnCue.Automata
