import Mathlib.Logic.Function.Basic
import Mathlib.Tactic.Common

/-! Guarded operations over bits that are reached through slots.  An action binds a slot to a
variable; guards and later actions use whatever variable the slot is bound to then, and to use a
slot that is not bound is a failure.  What else a machine has, its control state, is a parameter. -/

namespace LateBinding

/-- What a guard or an action names: a slot, or a variable itself. -/
inductive Register (L G : Type*) where
  | slot (l : L)
  | var (g : G)
deriving DecidableEq

inductive Guard (L G Q : Type*) where
  | bit (r : Register L G) (value : Bool)
  | control (q : Q)
deriving DecidableEq

inductive Action (L G A : Type*) where
  | write (r : Register L G) (value : Bool)
  | use (r : Register L G)
  | bind (l : L) (g : G)
  | control (a : A)
deriving DecidableEq

/-- The actions are carried out if all guards hold. -/
structure Operation (L G Q A : Type*) where
  guards : List (Guard L G Q)
  actions : List (Action L G A)
deriving DecidableEq

/-- What guards and actions mean for the control state. -/
structure Control (C Q A : Type*) where
  holds : Q → C → Bool
  apply : A → C → C

structure State (L G C : Type*) where
  control : C
  bits : G → Bool
  bound : L → Option G

section Execution

variable {L G C Q A : Type*} [DecidableEq L] [DecidableEq G]

def State.setBit (s : State L G C) (g : G) (value : Bool) : State L G C :=
  { s with bits := Function.update s.bits g value }

def State.bind (s : State L G C) (l : L) (g : G) : State L G C :=
  { s with bound := Function.update s.bound l (some g) }

omit [DecidableEq L] [DecidableEq G] in
/-- The variable of a register, if it has one. -/
def State.lookup (s : State L G C) : Register L G → Option G
  | .slot l => s.bound l
  | .var g => some g

variable (m : Control C Q A)

omit [DecidableEq L] [DecidableEq G] in
/-- What a guard says; `none` is a failure. -/
def Guard.test (s : State L G C) : Guard L G Q → Option Bool
  | .bit r value => (s.lookup r).map fun g => s.bits g == value
  | .control q => some (m.holds q s.control)

omit [DecidableEq L] [DecidableEq G] in
/-- The guards in order, up to the first that does not hold. -/
def testAll (s : State L G C) : List (Guard L G Q) → Option Bool
  | [] => some true
  | g :: rest => (g.test m s).bind fun holds => if holds then testAll s rest else some false

def Action.perform (s : State L G C) : Action L G A → Option (State L G C)
  | .write r value => (s.lookup r).map fun g => s.setBit g value
  | .use r => (s.lookup r).map fun _ => s
  | .bind l g => some (s.bind l g)
  | .control a => some { s with control := m.apply a s.control }

/-- The actions in order. -/
def performAll (s : State L G C) (actions : List (Action L G A)) : Option (State L G C) :=
  actions.foldlM (Action.perform m) s

def Operation.exec (s : State L G C) (op : Operation L G Q A) : Option (State L G C) :=
  (testAll m s op.guards).bind fun holds => if holds then performAll m s op.actions else some s

/-- The operations in order. -/
def run (s : State L G C) (ops : List (Operation L G Q A)) : Option (State L G C) :=
  ops.foldlM (Operation.exec m) s

end Execution

section Lemmas

variable {L G C Q A : Type*} [DecidableEq L] [DecidableEq G] {m : Control C Q A}
variable {s s' t : State L G C}

/-! ### Evaluation -/

omit [DecidableEq L] [DecidableEq G] in
@[simp] theorem lookup_var (s : State L G C) (g : G) : s.lookup (.var g) = some g := rfl

omit [DecidableEq L] [DecidableEq G] in
@[simp] theorem lookup_slot (s : State L G C) (l : L) : s.lookup (.slot l) = s.bound l := rfl

omit [DecidableEq L] in
@[simp] theorem lookup_setBit (s : State L G C) (g : G) (value : Bool) (r : Register L G) :
    (s.setBit g value).lookup r = s.lookup r := by
  cases r <;> rfl

omit [DecidableEq L] in
@[simp] theorem control_setBit (s : State L G C) (g : G) (value : Bool) :
    (s.setBit g value).control = s.control := rfl

omit [DecidableEq L] in
@[simp] theorem bound_setBit (s : State L G C) (g : G) (value : Bool) :
    (s.setBit g value).bound = s.bound := rfl

omit [DecidableEq L] in
theorem bits_setBit (s : State L G C) (g g' : G) (value : Bool) :
    (s.setBit g value).bits g' = if g' = g then value else s.bits g' := Function.update_apply ..

omit [DecidableEq L] in
theorem setBit_self (s : State L G C) (g : G) : s.setBit g (s.bits g) = s := by
  rw [State.setBit, Function.update_eq_self]

omit [DecidableEq G] in
@[simp] theorem control_bind (s : State L G C) (l : L) (g : G) :
    (s.bind l g).control = s.control := rfl

omit [DecidableEq G] in
@[simp] theorem bits_bind (s : State L G C) (l : L) (g : G) : (s.bind l g).bits = s.bits := rfl

omit [DecidableEq G] in
theorem bound_bind (s : State L G C) (l l' : L) (g : G) :
    (s.bind l g).bound l' = if l' = l then some g else s.bound l' := Function.update_apply ..

omit [DecidableEq L] [DecidableEq G] in
@[simp] theorem testAll_nil : testAll m s ([] : List (Guard L G Q)) = some true := rfl

omit [DecidableEq L] [DecidableEq G] in
theorem testAll_cons_true {g : Guard L G Q} {rest : List (Guard L G Q)}
    (h : g.test m s = some true) : testAll m s (g :: rest) = testAll m s rest := by
  rw [testAll, h, Option.bind_some, if_pos rfl]

omit [DecidableEq L] [DecidableEq G] in
theorem testAll_cons_false {g : Guard L G Q} {rest : List (Guard L G Q)}
    (h : g.test m s = some false) : testAll m s (g :: rest) = some false := by
  rw [testAll, h, Option.bind_some, if_neg Bool.false_ne_true]

omit [DecidableEq L] [DecidableEq G] in
theorem testAll_append (guards guards' : List (Guard L G Q)) :
    testAll m s (guards ++ guards') =
      (testAll m s guards).bind fun holds => if holds then testAll m s guards' else some false := by
  induction guards with
  | nil => rfl
  | cons g rest ih =>
    rw [List.cons_append, testAll, testAll]
    cases g.test m s with
    | none => rfl
    | some holds =>
      cases holds with
      | false => rfl
      | true => exact ih

omit [DecidableEq L] [DecidableEq G] in
theorem test_bit {r : Register L G} {g : G} (h : s.lookup r = some g) (value : Bool) :
    (Guard.bit r value : Guard L G Q).test m s = some (s.bits g == value) := by
  rw [Guard.test, h, Option.map_some]

omit [DecidableEq L] [DecidableEq G] in
theorem testAll_cons_bit {r : Register L G} {g : G} {rest : List (Guard L G Q)} {holds : Bool}
    (h : s.lookup r = some g) (value : Bool) (hrest : testAll m s rest = some holds) :
    testAll m s (.bit r value :: rest) = some (s.bits g == value && holds) := by
  rw [testAll, test_bit h, Option.bind_some, hrest]
  cases s.bits g == value <;> rfl

omit [DecidableEq L] [DecidableEq G] in
theorem testAll_cons_control {rest : List (Guard L G Q)} {holds : Bool} (q : Q)
    (hrest : testAll m s rest = some holds) :
    testAll m s (.control q :: rest) = some (m.holds q s.control && holds) := by
  rw [testAll, Guard.test, Option.bind_some, hrest]
  cases m.holds q s.control <;> rfl

omit [DecidableEq L] [DecidableEq G] in
/-- Guards that hold together hold each. -/
theorem test_of_testAll {guards : List (Guard L G Q)} (h : testAll m s guards = some true) :
    ∀ g ∈ guards, g.test m s = some true := by
  induction guards with
  | nil => simp
  | cons first rest ih =>
    obtain ⟨holds, hfirst, hrest⟩ := Option.bind_eq_some_iff.mp h
    cases holds with
    | false => cases hrest
    | true =>
      intro g hg
      rcases List.mem_cons.mp hg with rfl | hg
      · exact hfirst
      · exact ih hrest g hg

theorem exec_of_testAll {op : Operation L G Q A} (h : testAll m s op.guards = some true) :
    op.exec m s = performAll m s op.actions := by
  rw [Operation.exec, h, Option.bind_some, if_pos rfl]

/-- An operation with a guard that does not hold. -/
theorem exec_skip {op : Operation L G Q A} (h : testAll m s op.guards = some false) :
    op.exec m s = some s := by
  rw [Operation.exec, h, Option.bind_some, if_neg Bool.false_ne_true]

/-- An operation of which the first guard does not hold. -/
theorem exec_skip_first {g : Guard L G Q} (h : g.test m s = some false)
    (rest : List (Guard L G Q)) (actions : List (Action L G A)) :
    (⟨g :: rest, actions⟩ : Operation L G Q A).exec m s = some s :=
  exec_skip (testAll_cons_false h)

theorem exec_cases {op : Operation L G Q A} (h : op.exec m s = some s') :
    s' = s ∨ ((∀ g ∈ op.guards, g.test m s = some true) ∧
      performAll m s op.actions = some s') := by
  obtain ⟨holds, htest, hexec⟩ := Option.bind_eq_some_iff.mp h
  cases holds with
  | false => exact .inl (Option.some.inj hexec).symm
  | true => exact .inr ⟨test_of_testAll htest, hexec⟩

@[simp] theorem performAll_nil : performAll m s ([] : List (Action L G A)) = some s := rfl

theorem performAll_cons (a : Action L G A) (rest : List (Action L G A)) :
    performAll m s (a :: rest) = (a.perform m s).bind fun s => performAll m s rest := by
  rw [performAll, List.foldlM_cons]
  rfl

theorem performAll_append (actions actions' : List (Action L G A)) :
    performAll m s (actions ++ actions') =
      (performAll m s actions).bind fun s => performAll m s actions' := by
  rw [performAll, List.foldlM_append]
  rfl

/-- A write to a slot that is bound. -/
theorem performAll_write {r : Register L G} {g : G} (h : s.lookup r = some g) (value : Bool)
    (rest : List (Action L G A)) :
    performAll m s (.write r value :: rest) = performAll m (s.setBit g value) rest := by
  rw [performAll_cons, Action.perform, h, Option.map_some, Option.bind_some]

@[simp] theorem run_nil : run m s ([] : List (Operation L G Q A)) = some s := rfl

theorem run_cons (op : Operation L G Q A) (rest : List (Operation L G Q A)) :
    run m s (op :: rest) = (op.exec m s).bind fun s => run m s rest := by
  rw [run, List.foldlM_cons]
  rfl

theorem run_append (ops ops' : List (Operation L G Q A)) :
    run m s (ops ++ ops') = (run m s ops).bind fun s => run m s ops' := by
  rw [run, List.foldlM_append]
  rfl

theorem run_append_eq_some {ops ops' : List (Operation L G Q A)} :
    run m s (ops ++ ops') = some t ↔ ∃ u, run m s ops = some u ∧ run m u ops' = some t := by
  rw [run_append, Option.bind_eq_some_iff]

theorem run_cons_eq_some {op : Operation L G Q A} {rest : List (Operation L G Q A)} :
    run m s (op :: rest) = some t ↔ ∃ u, op.exec m s = some u ∧ run m u rest = some t := by
  rw [run_cons, Option.bind_eq_some_iff]

theorem run_singleton (op : Operation L G Q A) : run m s [op] = op.exec m s := by
  rw [run_cons]
  exact Option.bind_fun_some _

/-! ### What actions, operations and runs keep -/

/-- What each action keeps, the actions of an operation keep. -/
theorem performAll_keeps {I : State L G C → Prop} {actions : List (Action L G A)}
    (hkeeps : ∀ a ∈ actions, ∀ s s', I s → a.perform m s = some s' → I s')
    (h : performAll m s actions = some s') (hs : I s) : I s' := by
  induction actions generalizing s with
  | nil =>
    cases h
    exact hs
  | cons a rest ih =>
    rw [performAll_cons] at h
    obtain ⟨t, ht, hrest⟩ := Option.bind_eq_some_iff.mp h
    exact ih (fun b hb => hkeeps b (List.mem_cons_of_mem a hb)) hrest
      (hkeeps a List.mem_cons_self s t hs ht)

theorem exec_keeps {I : State L G C → Prop} {op : Operation L G Q A}
    (hkeeps : ∀ a ∈ op.actions, ∀ s s', I s → a.perform m s = some s' → I s')
    (h : op.exec m s = some s') (hs : I s) : I s' := by
  rcases exec_cases h with rfl | ⟨-, hperform⟩
  · exact hs
  · exact performAll_keeps hkeeps hperform hs

theorem run_keeps {I : State L G C → Prop} {ops : List (Operation L G Q A)}
    (hkeeps : ∀ op ∈ ops, ∀ s s', I s → op.exec m s = some s' → I s')
    (h : run m s ops = some s') (hs : I s) : I s' := by
  induction ops generalizing s with
  | nil =>
    cases h
    exact hs
  | cons op rest ih =>
    rw [run_cons] at h
    obtain ⟨t, ht, hrest⟩ := Option.bind_eq_some_iff.mp h
    exact ih (fun b hb => hkeeps b (List.mem_cons_of_mem op hb)) hrest
      (hkeeps op List.mem_cons_self s t hs ht)

/-- What the operations of each part keep, all of them keep. -/
theorem run_flatMap_keeps {P : Type*} {I : State L G C → Prop} {parts : List P}
    {ops : P → List (Operation L G Q A)}
    (hkeeps : ∀ p ∈ parts, ∀ s s', I s → run m s (ops p) = some s' → I s')
    (h : run m s (parts.flatMap ops) = some s') (hs : I s) : I s' := by
  induction parts generalizing s with
  | nil =>
    cases h
    exact hs
  | cons p rest ih =>
    rw [List.flatMap_cons] at h
    obtain ⟨t, ht, hrest⟩ := run_append_eq_some.mp h
    exact ih (fun q hq => hkeeps q (List.mem_cons_of_mem p hq)) hrest
      (hkeeps p List.mem_cons_self s t hs ht)

/-! ### Kinds of slots -/

/-- Slots are bound to variables of their kind. -/
def WellBound (kind : L → G → Prop) (s : State L G C) : Prop :=
  ∀ l g, s.bound l = some g → kind l g

/-- An action binds slots to variables of their kind. -/
def Action.BindsBy (kind : L → G → Prop) : Action L G A → Prop
  | .bind l g => kind l g
  | _ => True

/-- A register can stand for a variable. -/
def Register.Reaches (kind : L → G → Prop) : Register L G → G → Prop
  | .slot l, g => kind l g
  | .var g', g => g' = g

/-- An action does not write a variable. -/
def Action.Spares (kind : L → G → Prop) (g : G) : Action L G A → Prop
  | .write r _ => ¬ r.Reaches kind g
  | _ => True

/-- An action does not bind a slot. -/
def Action.Leaves (l : L) : Action L G A → Prop
  | .bind l' _ => l' ≠ l
  | _ => True

variable {kind : L → G → Prop}

omit [DecidableEq L] [DecidableEq G] in
theorem WellBound.reaches (h : WellBound kind s) {r : Register L G} {g : G}
    (hr : s.lookup r = some g) : r.Reaches kind g := by
  cases r with
  | slot l => exact h l g hr
  | var g' => exact Option.some.inj hr

theorem WellBound.perform (h : WellBound kind s) {a : Action L G A} (ha : a.BindsBy kind)
    (hperform : a.perform m s = some t) : WellBound kind t := by
  cases a with
  | write r value =>
    obtain ⟨g, -, rfl⟩ := Option.map_eq_some_iff.mp hperform
    exact h
  | use r =>
    obtain ⟨g, -, rfl⟩ := Option.map_eq_some_iff.mp hperform
    exact h
  | bind l g =>
    obtain rfl := Option.some.inj hperform
    intro l' g' hbound
    simp only [State.bind, Function.update_apply] at hbound
    split at hbound
    · next heq =>
      obtain rfl := Option.some.inj hbound
      exact heq ▸ ha
    · exact h l' g' hbound
  | control a =>
    obtain rfl := Option.some.inj hperform
    exact h

theorem WellBound.exec (h : WellBound kind s) {op : Operation L G Q A}
    (hop : ∀ a ∈ op.actions, a.BindsBy kind) (hexec : op.exec m s = some t) :
    WellBound kind t :=
  exec_keeps (fun a ha _ _ hs hperform => hs.perform (hop a ha) hperform) hexec h

theorem WellBound.run (h : WellBound kind s) {ops : List (Operation L G Q A)}
    (hops : ∀ op ∈ ops, ∀ a ∈ op.actions, a.BindsBy kind) (hrun : run m s ops = some t) :
    WellBound kind t :=
  run_keeps (fun op hop _ _ hs hexec => hs.exec (hops op hop) hexec) hrun h

/-- A variable keeps its value through actions that do not write it. -/
theorem bits_perform (h : WellBound kind s) {a : Action L G A} {g : G} (ha : a.Spares kind g)
    (hperform : a.perform m s = some t) : t.bits g = s.bits g := by
  cases a with
  | write r value =>
    obtain ⟨g', hg', rfl⟩ := Option.map_eq_some_iff.mp hperform
    refine Function.update_of_ne ?_ _ _
    rintro rfl
    exact ha (h.reaches hg')
  | use r =>
    obtain ⟨g', -, rfl⟩ := Option.map_eq_some_iff.mp hperform
    rfl
  | bind l g' =>
    obtain rfl := Option.some.inj hperform
    rfl
  | control a =>
    obtain rfl := Option.some.inj hperform
    rfl

theorem bits_exec (h : WellBound kind s) {op : Operation L G Q A} {g : G}
    (hop : ∀ a ∈ op.actions, a.BindsBy kind ∧ a.Spares kind g) (hexec : op.exec m s = some t) :
    t.bits g = s.bits g :=
  (exec_keeps (I := fun u => WellBound kind u ∧ u.bits g = s.bits g)
    (fun a ha _ _ hu hperform => ⟨hu.1.perform (hop a ha).1 hperform,
      (bits_perform hu.1 (hop a ha).2 hperform).trans hu.2⟩) hexec ⟨h, rfl⟩).2

theorem bits_run (h : WellBound kind s) {ops : List (Operation L G Q A)} {g : G}
    (hops : ∀ op ∈ ops, ∀ a ∈ op.actions, a.BindsBy kind ∧ a.Spares kind g)
    (hrun : run m s ops = some t) : t.bits g = s.bits g :=
  (run_keeps (I := fun u => WellBound kind u ∧ u.bits g = s.bits g)
    (fun op hop _ _ hu hexec => ⟨hu.1.exec (fun a ha => (hops op hop a ha).1) hexec,
      (bits_exec hu.1 (hops op hop) hexec).trans hu.2⟩) hrun ⟨h, rfl⟩).2

theorem bound_perform {a : Action L G A} {l : L} (ha : a.Leaves l)
    (hperform : a.perform m s = some t) : t.bound l = s.bound l := by
  cases a with
  | write r value =>
    obtain ⟨g', -, rfl⟩ := Option.map_eq_some_iff.mp hperform
    rfl
  | use r =>
    obtain ⟨g', -, rfl⟩ := Option.map_eq_some_iff.mp hperform
    rfl
  | bind l' g' =>
    obtain rfl := Option.some.inj hperform
    exact Function.update_of_ne (Ne.symm ha) _ _
  | control a =>
    obtain rfl := Option.some.inj hperform
    rfl

theorem bound_exec {op : Operation L G Q A} {l : L} (hop : ∀ a ∈ op.actions, a.Leaves l)
    (hexec : op.exec m s = some t) : t.bound l = s.bound l :=
  exec_keeps (I := fun u => u.bound l = s.bound l)
    (fun a ha _ _ hu hperform => (bound_perform (hop a ha) hperform).trans hu) hexec rfl

theorem bound_run {ops : List (Operation L G Q A)} {l : L}
    (hops : ∀ op ∈ ops, ∀ a ∈ op.actions, a.Leaves l) (hrun : run m s ops = some t) :
    t.bound l = s.bound l :=
  run_keeps (I := fun u => u.bound l = s.bound l)
    (fun op hop _ _ hu hexec => (bound_exec (hops op hop) hexec).trans hu) hrun rfl

/-- A slot that is bound stays bound. -/
theorem isSome_perform {a : Action L G A} {l : L} (h : (s.bound l).isSome)
    (hperform : a.perform m s = some t) : (t.bound l).isSome := by
  cases a with
  | write r value =>
    obtain ⟨g', -, rfl⟩ := Option.map_eq_some_iff.mp hperform
    exact h
  | use r =>
    obtain ⟨g', -, rfl⟩ := Option.map_eq_some_iff.mp hperform
    exact h
  | bind l' g' =>
    obtain rfl := Option.some.inj hperform
    simp only [State.bind, Function.update_apply]
    split
    · rfl
    · exact h
  | control a =>
    obtain rfl := Option.some.inj hperform
    exact h

theorem isSome_run {ops : List (Operation L G Q A)} {l : L} (h : (s.bound l).isSome)
    (hrun : run m s ops = some t) : (t.bound l).isSome :=
  run_keeps (I := fun u => (u.bound l).isSome)
    (fun _ _ _ _ hu hexec => exec_keeps (fun _ _ _ _ hv hperform => isSome_perform hv hperform)
      hexec hu) hrun h

/-! ### Runs without failure -/

/-- The register of a guard has a variable. -/
def Guard.Bound (s : State L G C) : Guard L G Q → Prop
  | .bit r _ => (s.lookup r).isSome
  | .control _ => True

/-- The register of an action has a variable, if the action uses one. -/
def Action.Bound (s : State L G C) : Action L G A → Prop
  | .write r _ => (s.lookup r).isSome
  | .use r => (s.lookup r).isSome
  | _ => True

/-- All that an operation uses has a variable. -/
def Operation.Bound (s : State L G C) (op : Operation L G Q A) : Prop :=
  (∀ g ∈ op.guards, g.Bound s) ∧ ∀ a ∈ op.actions, a.Bound s

/-- The slots that are bound in one state are bound in another. -/
def Extends (s t : State L G C) : Prop := ∀ l, (s.bound l).isSome → (t.bound l).isSome

omit [DecidableEq L] [DecidableEq G] in
theorem Extends.trans {u : State L G C} (h : Extends s t) (h' : Extends t u) : Extends s u :=
  fun l hl => h' l (h l hl)

theorem extends_run {ops : List (Operation L G Q A)} (h : run m s ops = some t) : Extends s t :=
  fun _ hl => isSome_run hl h

omit [DecidableEq L] [DecidableEq G] in
theorem Extends.lookup (h : Extends s t) {r : Register L G} (hr : (s.lookup r).isSome) :
    (t.lookup r).isSome := by
  cases r with
  | slot l => exact h l hr
  | var g => exact hr

omit [DecidableEq L] [DecidableEq G] in
theorem Guard.Bound.mono {g : Guard L G Q} (h : g.Bound s) (hext : Extends s t) : g.Bound t := by
  cases g with
  | bit r value => exact hext.lookup h
  | control q => trivial

omit [DecidableEq L] [DecidableEq G] in
theorem Action.Bound.mono {a : Action L G A} (h : a.Bound s) (hext : Extends s t) : a.Bound t := by
  cases a with
  | write r value => exact hext.lookup h
  | use r => exact hext.lookup h
  | bind l g => trivial
  | control a => trivial

omit [DecidableEq L] [DecidableEq G] in
theorem Operation.Bound.mono {op : Operation L G Q A} (h : op.Bound s) (hext : Extends s t) :
    op.Bound t :=
  ⟨fun g hg => (h.1 g hg).mono hext, fun a ha => (h.2 a ha).mono hext⟩

omit [DecidableEq L] [DecidableEq G] in
theorem testAll_of_bound {guards : List (Guard L G Q)} (h : ∀ g ∈ guards, g.Bound s) :
    ∃ holds, testAll m s guards = some holds := by
  induction guards with
  | nil => exact ⟨true, rfl⟩
  | cons g rest ih =>
    obtain ⟨holds, hrest⟩ := ih fun g' hg' => h g' (List.mem_cons_of_mem g hg')
    have hfirst := h g List.mem_cons_self
    cases g with
    | bit r value =>
      obtain ⟨v, hv⟩ := Option.isSome_iff_exists.mp hfirst
      exact ⟨_, testAll_cons_bit hv value hrest⟩
    | control q => exact ⟨_, testAll_cons_control q hrest⟩

theorem perform_of_bound {a : Action L G A} (h : a.Bound s) : ∃ t, a.perform m s = some t := by
  cases a with
  | write r value =>
    obtain ⟨g, hg⟩ := Option.isSome_iff_exists.mp h
    exact ⟨s.setBit g value, by rw [Action.perform, hg, Option.map_some]⟩
  | use r =>
    obtain ⟨g, hg⟩ := Option.isSome_iff_exists.mp h
    exact ⟨s, by rw [Action.perform, hg, Option.map_some]⟩
  | bind l g => exact ⟨s.bind l g, rfl⟩
  | control a => exact ⟨_, rfl⟩

theorem performAll_of_bound {actions : List (Action L G A)} (h : ∀ a ∈ actions, a.Bound s) :
    ∃ t, performAll m s actions = some t := by
  induction actions generalizing s with
  | nil => exact ⟨s, rfl⟩
  | cons a rest ih =>
    obtain ⟨u, hu⟩ := perform_of_bound (m := m) (h a List.mem_cons_self)
    have hext : Extends s u := fun l hl => isSome_perform hl hu
    have hrest : ∀ b ∈ rest, b.Bound u := fun b hb =>
      Action.Bound.mono (h b (List.mem_cons_of_mem a hb)) hext
    obtain ⟨t, ht⟩ := ih hrest
    exact ⟨t, by rw [performAll_cons, hu, Option.bind_some, ht]⟩

theorem exec_of_bound {op : Operation L G Q A} (h : op.Bound s) : ∃ t, op.exec m s = some t := by
  obtain ⟨holds, htest⟩ := testAll_of_bound (m := m) h.1
  cases holds with
  | false => exact ⟨s, exec_skip htest⟩
  | true =>
    obtain ⟨t, ht⟩ := performAll_of_bound (m := m) h.2
    exact ⟨t, (exec_of_testAll htest).trans ht⟩

/-- Operations run if all that they use is bound before them. -/
theorem run_of_bound {ops : List (Operation L G Q A)} (h : ∀ op ∈ ops, op.Bound s) :
    ∃ t, run m s ops = some t := by
  induction ops generalizing s with
  | nil => exact ⟨s, rfl⟩
  | cons op rest ih =>
    obtain ⟨u, hu⟩ := exec_of_bound (m := m) (h op List.mem_cons_self)
    have hext : Extends s u := extends_run ((run_singleton op).trans hu)
    obtain ⟨t, ht⟩ := ih fun op' hop' => (h op' (List.mem_cons_of_mem op hop')).mono hext
    exact ⟨t, run_cons_eq_some.mpr ⟨u, hu, ht⟩⟩

/-- Operations that all do nothing. -/
theorem run_skip {ops : List (Operation L G Q A)} (h : ∀ op ∈ ops, op.exec m s = some s) :
    run m s ops = some s := by
  induction ops with
  | nil => rfl
  | cons op rest ih =>
    exact run_cons_eq_some.mpr ⟨s, h op List.mem_cons_self,
      ih fun op' hop' => h op' (List.mem_cons_of_mem op hop')⟩

end Lemmas

end LateBinding
