import Mathlib.Logic.Function.Basic
import OpenmrnCue.Library.Interference
import OpenmrnCue.Automata.Machine

/-! Automata over the names of variables: what the conditions and actions of operations say and do
when each variable is used by its name, without the local variables that it is imported as. -/

namespace OpenmrnCue.Automata

/-- What an automaton works on, by the names of the variables: its state, its timer, the aspect
accumulator, the bits, and the values of byte variables. -/
structure Layout (V : Type) where
  state : UInt8
  timer : UInt8
  aspect : UInt8
  bits : V → Bool
  values : V → Nat → UInt8

namespace Layout

variable {V G : Type} [DecidableEq V] (s : Layout V)

/-- What a condition says. -/
def test : Condition V → Layout V → Bool
  | .ifState state, s => s.state == UInt8.ofNat state
  | .ifReg0 var, s => !s.bits var
  | .ifReg1 var, s => s.bits var
  | .ifTimerDone, s => s.timer == 0
  | .ifTimerNotDone, s => s.timer != 0
  | .ifAspect value, s => s.aspect == value

def setBit (var : V) (value : Bool) : Layout V :=
  { s with bits := Function.update s.bits var value }

def setValue (var : V) (offset : Nat) (value : UInt8) : Layout V :=
  { s with values := Function.update s.values var (Function.update (s.values var) offset value) }

/-- What an action does.  A variable that is used by its name needs no import, and the accumulator
of the event ids is for definitions. -/
def perform : Action V G → Layout V → Layout V
  | .actReg0 var, s => s.setBit var false
  | .actReg1 var, s => s.setBit var true
  | .actState state, s => { s with state := UInt8.ofNat state }
  | .actTimer seconds, s => { s with timer := UInt8.ofNat seconds }
  | .actImportVariable _ _, s => s
  | .actSetId _, s => s
  | .actSetAspect value, s => { s with aspect := value }
  | .actUpAspect, s => { s with aspect := upAspect s.aspect }
  | .actSetValue var offset value, s => s.setValue var offset value
  | .actSetValueFromAspect var offset, s => s.setValue var offset s.aspect
  | .actGetValueToAspect var offset, s => { s with aspect := s.values var offset }

/-- Automata read and write the variables one by one. -/
def semantics : Interference.Semantics (Condition V) (Action V G) (Layout V) where
  holds := test
  apply := perform

/-- An operation, when nothing else runs in between. -/
def exec (op : Op V G) : Layout V :=
  if op.ifs.all (test · s) then op.acts.foldl (fun s a => perform a s) s else s

/-- A run of operations. -/
def run (ops : List (Op V G)) : Layout V := ops.foldl exec s

theorem exec_cases (op : Op V G) : s.exec op = s ∨
    ((∀ c ∈ op.ifs, test c s = true) ∧ s.exec op = op.acts.foldl (fun s a => perform a s) s) := by
  unfold exec
  split
  · next h => exact .inr ⟨List.all_eq_true.mp h, rfl⟩
  · exact .inl rfl

omit [DecidableEq V] in
@[simp] theorem test_ifState {state : Nat} :
    test (.ifState state) s = true ↔ s.state = UInt8.ofNat state := beq_iff_eq

omit [DecidableEq V] in
@[simp] theorem test_ifReg0 {var : V} : test (.ifReg0 var) s = true ↔ s.bits var = false := by
  simp [test]

omit [DecidableEq V] in
@[simp] theorem test_ifReg1 {var : V} : test (.ifReg1 var) s = true ↔ s.bits var = true := by
  simp [test]

omit [DecidableEq V] in
@[simp] theorem test_ifTimerDone : test .ifTimerDone s = true ↔ s.timer = 0 := beq_iff_eq

/-- An operation for one state, in this state. -/
theorem exec_ifState {state : Nat} (h : s.state = UInt8.ofNat state) (acts : List (Action V G)) :
    s.exec ⟨[.ifState state], acts⟩ = acts.foldl (fun s a => perform a s) s := by
  have hfires : ([Condition.ifState state].all (test · s)) = true := by simpa [test] using h
  rw [exec, if_pos hfires]

/-- An operation for one state, in another. -/
theorem exec_of_state_ne {state : Nat} (h : s.state ≠ UInt8.ofNat state) {op : Op V G}
    (hop : .ifState state ∈ op.ifs) : s.exec op = s := by
  rcases s.exec_cases op with heq | ⟨hifs, -⟩
  · exact heq
  · exact absurd (s.test_ifState.mp (hifs _ hop)) h

theorem run_append (ops ops' : List (Op V G)) : s.run (ops ++ ops') = (s.run ops).run ops' := by
  simp [run]

/-- What each operation keeps, a run keeps. -/
theorem run_keeps {I : Layout V → Prop} {ops : List (Op V G)} (hs : I s)
    (hop : ∀ op ∈ ops, ∀ s, I s → I (s.exec op)) : I (s.run ops) := by
  induction ops generalizing s with
  | nil => exact hs
  | cons op ops ih =>
    exact ih (s.exec op) (hop op List.mem_cons_self s hs)
      fun op' hop' => hop op' (List.mem_cons_of_mem _ hop')

/-- What each action keeps, an operation keeps. -/
theorem exec_keeps {I : Layout V → Prop} {op : Op V G} (hs : I s)
    (hact : ∀ a ∈ op.acts, ∀ s, I s → I (perform a s)) : I (s.exec op) := by
  rcases s.exec_cases op with heq | ⟨-, heq⟩
  · rwa [heq]
  · rw [heq]
    clear heq
    revert hact
    generalize op.acts = acts
    intro hact
    induction acts generalizing s with
    | nil => exact hs
    | cons a acts ih =>
      exact ih (perform a s) (hact a List.mem_cons_self s hs)
        fun b hb => hact b (List.mem_cons_of_mem _ hb)

/-- Operations that do not set the state. -/
theorem state_run {ops : List (Op V G)}
    (h : ∀ op ∈ ops, ∀ a ∈ op.acts, ∀ state, a ≠ .actState state) :
    (s.run ops).state = s.state := by
  refine s.run_keeps (I := fun t => t.state = s.state) rfl fun op hop t ht => ?_
  refine t.exec_keeps (I := fun t => t.state = s.state) ht fun a ha u hu => ?_
  cases a with
  | actState state => exact absurd rfl (h op hop _ ha state)
  | _ => exact hu

end Layout

section Actions

variable {V G : Type} {P Q : Action V G → Prop} {ops ops' : List (Op V G)}

/-- Each action of the operations has the property. -/
def EachAction (P : Action V G → Prop) (ops : List (Op V G)) : Prop :=
  ∀ op ∈ ops, ∀ a ∈ op.acts, P a

theorem EachAction.nil : EachAction P [] := by simp [EachAction]

theorem EachAction.cons {op : Op V G} (hop : ∀ a ∈ op.acts, P a) (h : EachAction P ops) :
    EachAction P (op :: ops) :=
  List.forall_mem_cons.mpr ⟨hop, h⟩

theorem EachAction.append (h : EachAction P ops) (h' : EachAction P ops') :
    EachAction P (ops ++ ops') :=
  List.forall_mem_append.mpr ⟨h, h'⟩

theorem EachAction.flatten {opss : List (List (Op V G))} (h : ∀ ops ∈ opss, EachAction P ops) :
    EachAction P opss.flatten := by
  intro op hop
  obtain ⟨ops, hops, hop⟩ := List.mem_flatten.mp hop
  exact h ops hops op hop

theorem EachAction.imp (h : EachAction P ops) (himp : ∀ a, P a → Q a) : EachAction Q ops :=
  fun op hop a ha => himp a (h op hop a ha)

end Actions

section Writes

variable {V G : Type} {W W' : V → Prop} {ops : List (Op V G)}

/-- The action writes one of these bits or the timer, and nothing else. -/
def Action.Touches (W : V → Prop) : Action V G → Prop
  | .actReg0 var | .actReg1 var => W var
  | .actTimer _ => True
  | _ => False

/-- The action writes one of these bits and nothing else. -/
def Action.Writes (W : V → Prop) : Action V G → Prop
  | .actReg0 var | .actReg1 var => W var
  | _ => False

/-- The operations write these bits and nothing else. -/
abbrev WriteOnly (W : V → Prop) (ops : List (Op V G)) : Prop := EachAction (Action.Writes W) ops

theorem Action.Touches.mono {a : Action V G} (h : a.Touches W) (hsub : ∀ v, W v → W' v) :
    a.Touches W' := by
  cases a with
  | actReg0 var => exact hsub var h
  | actReg1 var => exact hsub var h
  | _ => exact h

theorem WriteOnly.touches (h : WriteOnly W ops) : EachAction (Action.Touches W) ops := by
  refine h.imp fun a ha => ?_
  cases a with
  | actReg0 var => exact ha
  | actReg1 var => exact ha
  | _ => exact ha.elim

/-- The layouts agree in the state and the bits, but for these bits. -/
structure Layout.AgreeBut (W : V → Prop) (s s' : Layout V) : Prop where
  state : s'.state = s.state
  bits : ∀ var, ¬ W var → s'.bits var = s.bits var

variable [DecidableEq V]

/-- What a run of such operations leaves. -/
theorem EachAction.agree (h : EachAction (Action.Touches W) ops) (s : Layout V) :
    s.AgreeBut W (s.run ops) := by
  refine s.run_keeps (I := s.AgreeBut W) ⟨rfl, fun _ _ => rfl⟩ fun op hop t ht => ?_
  refine t.exec_keeps ht fun a ha u hu => ?_
  have hwrite : ∀ {var : V} {value : Bool}, W var → s.AgreeBut W (u.setBit var value) := by
    intro var value hvar
    refine ⟨hu.state, fun other hother => ?_⟩
    have hne : other ≠ var := fun heq => hother (heq ▸ hvar)
    simp only [Layout.setBit, Function.update_of_ne hne]
    exact hu.bits other hother
  have ha := h op hop a ha
  cases a with
  | actReg0 var => exact hwrite ha
  | actReg1 var => exact hwrite ha
  | actTimer seconds => exact ⟨hu.state, hu.bits⟩
  | _ => exact ha.elim

theorem WriteOnly.timer (h : WriteOnly W ops) (s : Layout V) : (s.run ops).timer = s.timer := by
  refine s.run_keeps (I := fun t => t.timer = s.timer) rfl fun op hop t ht => ?_
  refine t.exec_keeps (I := fun t => t.timer = s.timer) ht fun a ha u hu => ?_
  have ha := h op hop a ha
  cases a with
  | actReg0 var => exact hu
  | actReg1 var => exact hu
  | _ => exact ha.elim

end Writes

/-- The conditions and actions of an operation. -/
def Op.guarded {V G : Type} (op : Op V G) : Interference.Guarded (Condition V) (Action V G) :=
  ⟨op.ifs, op.acts⟩

end OpenmrnCue.Automata
