import OpenmrnCue.Automata.Plugins

/-! The automaton of the turnout magnets of `control-logic.cc`.  Its state is the lock of the
magnets: in the state of a magnet one of the two coils of this magnet is on, and in every other
state all coils are off. -/

namespace OpenmrnCue.Automata

/-! ## Magnets -/

/-- The variables that the automaton allocates for magnets and coupled magnets, by their numbers,
and those of the layout. -/
inductive MagnetBit where
  | command (magnet : Nat)
  | currentState (magnet : Nat)
  | coupledCommand (coupled : Nat)
  | coupledState (coupled : Nat)
  | remoteCommand (coupled : Nat)
  | foreign (n : Nat)
deriving DecidableEq, Repr

abbrev MagnetOp := Op MagnetBit Empty

/-- `MagnetDef`. -/
structure MagnetDef where
  id : Nat
  set0 : Nat
  set1 : Nat
  autState : Nat
  defaultState : Bool
deriving DecidableEq, Repr

/-- `CoupledMagnetDef`, with the number of the original. -/
structure CoupledMagnetDef where
  id : Nat
  original : Nat
  invert : Bool
deriving DecidableEq, Repr

/-- `IfReg`. -/
def ifReg (var : MagnetBit) (value : Bool) : Condition MagnetBit :=
  if value then .ifReg1 var else .ifReg0 var

/-- `ActReg`. -/
def actReg (var : MagnetBit) (value : Bool) : Action MagnetBit Empty :=
  if value then .actReg1 var else .actReg0 var

/-- `set_0` and `set_1`. -/
def MagnetDef.coil (m : MagnetDef) (value : Bool) : MagnetBit :=
  .foreign (if value then m.set1 else m.set0)

/-- `MagnetAutomataEntry`. -/
def magnetAutomataEntry (m : MagnetDef) : List MagnetOp :=
  let currentState := .currentState m.id
  let command := .command m.id
  let set0 := m.coil false
  let set1 := m.coil true
  [⟨[.ifState stInit],
      [.actReg1 set0, .actReg0 set0, .actReg1 set1, .actReg0 set1, actReg command m.defaultState]⟩,
    ⟨[.ifState stInit, .ifReg0 command], [.actReg1 currentState]⟩,
    ⟨[.ifState stInit, .ifReg1 command], [.actReg0 currentState]⟩,
    -- The magnet is pulled with the lock, and released with it.
    ⟨[.ifState stBase, .ifTimerDone, .ifReg1 command, .ifReg0 currentState],
      [.actState m.autState, .actTimer 1, .actReg1 set1]⟩,
    ⟨[.ifState stBase, .ifTimerDone, .ifReg0 command, .ifReg1 currentState],
      [.actState m.autState, .actTimer 1, .actReg1 set0]⟩,
    ⟨[.ifState m.autState, .ifTimerDone, .ifReg1 set1],
      [.actReg0 set1, .actReg1 currentState, .actState stBase]⟩,
    ⟨[.ifState m.autState, .ifTimerDone, .ifReg1 set0],
      [.actReg0 currentState, .actReg0 set0, .actState stBase]⟩,
    ⟨[.ifState stBase], [.actReg0 set0, .actReg0 set1]⟩]

/-- `MagnetAutomataCouple`. -/
def magnetAutomataCouple (c : CoupledMagnetDef) : List MagnetOp :=
  let currentState := .coupledState c.id
  let remoteState := .currentState c.original
  let command := .coupledCommand c.id
  let remoteCommand := .remoteCommand c.id
  let realRemoteCommand := .command c.original
  let remote1 := !c.invert
  let remote0 := c.invert
  [⟨[ifReg realRemoteCommand remote1, .ifReg0 remoteCommand],
      [.actReg1 remoteCommand, .actReg1 command]⟩,
    ⟨[ifReg realRemoteCommand remote0, .ifReg1 remoteCommand],
      [.actReg0 remoteCommand, .actReg0 command]⟩,
    ⟨[.ifReg1 command, .ifReg0 remoteCommand],
      [.actReg1 remoteCommand, actReg realRemoteCommand remote1]⟩,
    ⟨[.ifReg0 command, .ifReg1 remoteCommand],
      [.actReg0 remoteCommand, actReg realRemoteCommand remote0]⟩,
    ⟨[ifReg remoteState remote1, .ifReg0 currentState], [.actReg1 currentState]⟩,
    ⟨[ifReg remoteState remote0, .ifReg1 currentState], [.actReg0 currentState]⟩]

/-- `MagnetAutomataFinal`. -/
def magnetAutomataFinal : List MagnetOp := [⟨[.ifState stBase, .ifTimerDone], [.actTimer 1]⟩]

/-- `MagnetCommandAutomata`.  The magnets have states of `NewUserState`, and neither states nor
variables in common. -/
structure MagnetCommandAutomata where
  magnets : List MagnetDef
  coupled : List CoupledMagnetDef
  userStates : ∀ m ∈ magnets, 10 ≤ m.autState ∧ m.autState < 32
  ids : ∀ m ∈ magnets, ∀ m' ∈ magnets, m.id = m'.id → m = m'
  states : ∀ m ∈ magnets, ∀ m' ∈ magnets, m.autState = m'.autState → m = m'
  coils : ∀ m ∈ magnets, ∀ m' ∈ magnets, ∀ v v', m.coil v = m'.coil v' → m = m' ∧ v = v'

namespace MagnetCommandAutomata

variable (a : MagnetCommandAutomata)

/-- The plugins of the constructor, of `AddMagnet` and of `AddCoupledMagnet`. -/
def plugins : Plugins MagnetBit :=
  (Plugins.init.addAutomataPlugin 100 magnetAutomataFinal).addAll
    ((a.magnets.map fun m => (m.autState, magnetAutomataEntry m)) ++
      a.coupled.map fun c => (2, magnetAutomataCouple c))

/-- `Body`. -/
def body : List MagnetOp := a.plugins.runAll

/-- Ticks, and writes of everything but the coils and current states. -/
structure Outside (s s' : Layout MagnetBit) : Prop where
  state : s'.state = s.state
  coils : ∀ m ∈ a.magnets, ∀ value, s'.bits (m.coil value) = s.bits (m.coil value)
  currentStates : ∀ m ∈ a.magnets, s'.bits (.currentState m.id) = s.bits (.currentState m.id)

/-- The states between runs, from the end of the initial run on.  Before it all bits are
arbitrary. -/
inductive Reachable : Layout MagnetBit → Prop
  | initial {s : Layout MagnetBit} (h : s.state = UInt8.ofNat stInit) : Reachable (s.run a.body)
  | run {s : Layout MagnetBit} (h : Reachable s) : Reachable (s.run a.body)
  | outside {s s' : Layout MagnetBit} (h : Reachable s) (houtside : a.Outside s s') : Reachable s'

/-! ### Operations -/

/-- The body: operations of magnets, of coupled magnets and of the timer, and `HandleInitState`. -/
theorem exists_body : ∃ front, a.body = front ++ [⟨[.ifState stInit], [.actState stBase]⟩] ∧
    (∀ op ∈ front, (∃ m ∈ a.magnets, op ∈ magnetAutomataEntry m) ∨
      (∃ c ∈ a.coupled, op ∈ magnetAutomataCouple c) ∨ op ∈ magnetAutomataFinal) ∧
    ∀ m ∈ a.magnets, ∃ before after, front = before ++ magnetAutomataEntry m ++ after := by
  have hrendered : a.plugins.Rendered fun ops => (∃ m ∈ a.magnets, ops = magnetAutomataEntry m) ∨
      (∃ c ∈ a.coupled, ops = magnetAutomataCouple c) ∨ ops = magnetAutomataFinal := by
    refine ((Plugins.rendered_init _).add (by decide) (.inr (.inr rfl))).addAll fun p hp => ?_
    rcases List.mem_append.mp hp with hp | hp
    · obtain ⟨m, hm, rfl⟩ := List.mem_map.mp hp
      have hstate := (a.userStates m hm).2
      exact ⟨by simp only; omega, .inl ⟨m, hm, rfl⟩⟩
    · obtain ⟨c, hc, rfl⟩ := List.mem_map.mp hp
      exact ⟨show 2 < 10000 by decide, .inr (.inl ⟨c, hc, rfl⟩)⟩
  obtain ⟨front, hbody, hfront, hcallbacks⟩ := hrendered.exists_runAll
  refine ⟨front, hbody, fun op hop => ?_, fun m hm => ?_⟩
  · obtain ⟨ops, ⟨m, hm, rfl⟩ | ⟨c, hc, rfl⟩ | rfl, hop⟩ := hfront op hop
    · exact .inl ⟨m, hm, hop⟩
    · exact .inr (.inl ⟨c, hc, hop⟩)
    · exact .inr (.inr hop)
  · have hmem : (m.autState, magnetAutomataEntry m) ∈ a.plugins :=
      Plugins.mem_addAll.mpr (.inl (List.mem_append_left _ (List.mem_map_of_mem hm)))
    have hstate := (a.userStates m hm).2
    exact hcallbacks _ hmem (by simp only; omega)

variable {a : MagnetCommandAutomata} {s t : Layout MagnetBit}

/-- What an operation does to coils and current states. -/
inductive Effect (a : MagnetCommandAutomata) (s t : Layout MagnetBit) : Prop
  | quiet (hstate : t.state = s.state) (htimer : t.timer = s.timer ∨ t.timer ≠ 0)
      (hcoils : ∀ n, t.bits (.foreign n) = s.bits (.foreign n))
      (hcurrent : ∀ id, t.bits (.currentState id) = s.bits (.currentState id))
  | pull (m : MagnetDef) (hm : m ∈ a.magnets) (v : Bool) (hbase : s.state = UInt8.ofNat stBase)
      (hcurrent : s.bits (.currentState m.id) = !v) (hstate : t.state = UInt8.ofNat m.autState)
      (htimer : t.timer ≠ 0) (hbits : t.bits = Function.update s.bits (m.coil v) true)
  | release (m : MagnetDef) (hm : m ∈ a.magnets) (v : Bool)
      (hheld : s.state = UInt8.ofNat m.autState) (hdone : s.timer = 0)
      (hcoil : s.bits (m.coil v) = true) (hstate : t.state = UInt8.ofNat stBase)
      (htimer : t.timer = s.timer)
      (hbits : t.bits = Function.update (Function.update s.bits (m.coil v) false)
        (.currentState m.id) v)
  | off (m : MagnetDef) (hm : m ∈ a.magnets) (hbase : s.state = UInt8.ofNat stBase)
      (hstate : t.state = s.state) (htimer : t.timer = s.timer)
      (hbits : t.bits = Function.update (Function.update s.bits (m.coil false) false)
        (m.coil true) false)

theorem Effect.refl (a : MagnetCommandAutomata) (s : Layout MagnetBit) : a.Effect s s :=
  .quiet rfl (.inl rfl) (fun _ => rfl) fun _ => rfl

/-- The operations of a magnet, after the initialisation. -/
theorem effect_entry {m : MagnetDef} (hm : m ∈ a.magnets) {op : MagnetOp}
    (hop : op ∈ magnetAutomataEntry m) (hrunning : s.state ≠ UInt8.ofNat stInit) :
    a.Effect s (s.exec op) := by
  rcases s.exec_cases op with heq | ⟨hifs, heq⟩
  · rw [heq]
    exact .refl a s
  · rw [heq]
    simp only [magnetAutomataEntry, List.mem_cons, List.not_mem_nil, or_false] at hop
    rcases hop with rfl | rfl | rfl | rfl | rfl | rfl | rfl | rfl
    · exact absurd ((Layout.test_ifState s).mp (hifs _ (by simp))) hrunning
    · exact absurd ((Layout.test_ifState s).mp (hifs _ (by simp))) hrunning
    · exact absurd ((Layout.test_ifState s).mp (hifs _ (by simp))) hrunning
    · exact .pull m hm true ((Layout.test_ifState s).mp (hifs _ (by simp)))
        ((Layout.test_ifReg0 s).mp (hifs _ (by simp))) rfl
        (show UInt8.ofNat 1 ≠ 0 by decide) rfl
    · exact .pull m hm false ((Layout.test_ifState s).mp (hifs _ (by simp)))
        ((Layout.test_ifReg1 s).mp (hifs (.ifReg1 (.currentState m.id)) (by simp))) rfl
        (show UInt8.ofNat 1 ≠ 0 by decide) rfl
    · exact .release m hm true ((Layout.test_ifState s).mp (hifs _ (by simp)))
        ((Layout.test_ifTimerDone s).mp (hifs _ (by simp)))
        ((Layout.test_ifReg1 s).mp (hifs _ (by simp))) rfl rfl rfl
    · refine .release m hm false ((Layout.test_ifState s).mp (hifs _ (by simp)))
        ((Layout.test_ifTimerDone s).mp (hifs _ (by simp)))
        ((Layout.test_ifReg1 s).mp (hifs _ (by simp))) rfl rfl ?_
      exact Function.update_comm (by simp [MagnetDef.coil]) _ _ _
    · exact .off m hm ((Layout.test_ifState s).mp (hifs _ (by simp))) rfl rfl rfl

/-- The operations of coupled magnets write no coil and no current state of a magnet. -/
theorem exec_couple {c : CoupledMagnetDef} {op : MagnetOp} (hop : op ∈ magnetAutomataCouple c)
    (s : Layout MagnetBit) : (s.exec op).state = s.state ∧ (s.exec op).timer = s.timer ∧
      (∀ n, (s.exec op).bits (.foreign n) = s.bits (.foreign n)) ∧
      ∀ id, (s.exec op).bits (.currentState id) = s.bits (.currentState id) := by
  rcases s.exec_cases op with heq | ⟨-, heq⟩
  · rw [heq]
    exact ⟨rfl, rfl, fun _ => rfl, fun _ => rfl⟩
  · rw [heq]
    simp only [magnetAutomataCouple, actReg, List.mem_cons, List.not_mem_nil, or_false] at hop
    rcases hop with rfl | rfl | rfl | rfl | rfl | rfl <;> cases c.invert <;>
      exact ⟨rfl, rfl, fun n => by simp [Layout.perform, Layout.setBit],
        fun id => by simp [Layout.perform, Layout.setBit]⟩

theorem effect_final {op : MagnetOp} (hop : op ∈ magnetAutomataFinal) :
    a.Effect s (s.exec op) := by
  rcases s.exec_cases op with heq | ⟨-, heq⟩
  · rw [heq]
    exact .refl a s
  · rw [heq, List.mem_singleton.mp hop]
    exact .quiet rfl (.inr (show UInt8.ofNat 1 ≠ 0 by decide)) (fun _ => rfl) fun _ => rfl

/-- Every operation of the body, after the initialisation. -/
theorem effect_exec {op : MagnetOp} (hop : op ∈ a.body)
    (hrunning : s.state ≠ UInt8.ofNat stInit) : a.Effect s (s.exec op) := by
  obtain ⟨front, hbody, hfront, -⟩ := a.exists_body
  rw [hbody] at hop
  rcases List.mem_append.mp hop with hop | hop
  · rcases hfront op hop with ⟨m, hm, hop⟩ | ⟨c, -, hop⟩ | hop
    · exact effect_entry hm hop hrunning
    · obtain ⟨hstate, htimer, hcoils, hcurrent⟩ := exec_couple hop s
      exact .quiet hstate (.inl htimer) hcoils hcurrent
    · exact effect_final hop
  · rw [List.mem_singleton.mp hop, s.exec_of_state_ne hrunning (by simp)]
    exact .refl a s

/-! ### The lock -/

/-- The state of the automaton and the coils show which coil is on. -/
structure Shows (a : MagnetCommandAutomata) (s : Layout MagnetBit)
    (lit : Option (MagnetDef × Bool)) : Prop where
  running : s.state ≠ UInt8.ofNat stInit
  coils : ∀ m ∈ a.magnets, ∀ v, s.bits (m.coil v) = true ↔ lit = some (m, v)
  idle : lit = none → ∀ m ∈ a.magnets, s.state ≠ UInt8.ofNat m.autState
  held : ∀ m v, lit = some (m, v) → m ∈ a.magnets ∧ s.state = UInt8.ofNat m.autState

/-- States of magnets are no other states, and differ from each other. -/
theorem autState_ne {m : MagnetDef} (hm : m ∈ a.magnets) :
    UInt8.ofNat m.autState ≠ UInt8.ofNat stInit ∧
      UInt8.ofNat m.autState ≠ UInt8.ofNat stBase := by
  have hstate := a.userStates m hm
  constructor <;>
  · intro heq
    have := congrArg UInt8.toNat heq
    simp [stInit, stBase] at this
    omega

theorem autState_inj {m m' : MagnetDef} (hm : m ∈ a.magnets) (hm' : m' ∈ a.magnets)
    (heq : UInt8.ofNat m.autState = UInt8.ofNat m'.autState) : m = m' := by
  have hstate := a.userStates m hm
  have hstate' := a.userStates m' hm'
  have heq := congrArg UInt8.toNat heq
  simp at heq
  exact a.states m hm m' hm' (by omega)

/-- An operation takes the lock, gives it back, or leaves it. -/
theorem Shows.step {lit : Option (MagnetDef × Bool)} (h : a.Shows s lit) (heffect : a.Effect s t) :
    ∃ lit', a.Shows t lit' := by
  cases heffect with
  | quiet hstate _ hcoils _ =>
    refine ⟨lit, hstate ▸ h.running, fun m hm v => ?_, hstate ▸ h.idle, hstate ▸ h.held⟩
    have hcoil : t.bits (m.coil v) = s.bits (m.coil v) := hcoils _
    rw [hcoil]
    exact h.coils m hm v
  | pull m hm v hbase _ hstate _ hbits =>
    have hidle : lit = none := by
      cases hlit : lit with
      | none => rfl
      | some on =>
        obtain ⟨hon, hheld⟩ := h.held on.1 on.2 hlit
        exact absurd (hheld.symm.trans hbase) (autState_ne hon).2
    refine ⟨some (m, v), hstate ▸ (autState_ne hm).1, fun m' hm' v' => ?_, by simp, ?_⟩
    · rw [hbits]
      by_cases hcoil : m'.coil v' = m.coil v
      · obtain ⟨rfl, rfl⟩ := a.coils m' hm' m hm v' v hcoil
        simp
      · rw [Function.update_of_ne hcoil, h.coils m' hm' v', hidle]
        refine ⟨fun heq => absurd heq (by simp), fun heq => ?_⟩
        obtain ⟨rfl, rfl⟩ := Prod.mk.inj (Option.some.inj heq)
        exact absurd rfl hcoil
    · rintro m' v' heq
      obtain ⟨rfl, rfl⟩ := Prod.mk.inj (Option.some.inj heq)
      exact ⟨hm, hstate⟩
  | release m hm v hheld _ hcoil hstate _ hbits =>
    have hlit : lit = some (m, v) := (h.coils m hm v).mp hcoil
    refine ⟨none, by rw [hstate]; decide, fun m' hm' v' => ?_, fun _ m' hm' => ?_, by simp⟩
    · have hname : m'.coil v' ≠ .currentState m.id := MagnetBit.noConfusion
      rw [hbits, Function.update_of_ne hname]
      by_cases hoff : m'.coil v' = m.coil v
      · simp [hoff]
      · rw [Function.update_of_ne hoff, h.coils m' hm' v', hlit]
        refine ⟨fun heq => ?_, fun heq => absurd heq (by simp)⟩
        obtain ⟨rfl, rfl⟩ := Prod.mk.inj (Option.some.inj heq)
        exact absurd rfl hoff
    · rw [hstate]
      exact (autState_ne hm').2.symm
  | off m hm hbase hstate _ hbits =>
    refine ⟨lit, hstate ▸ h.running, fun m' hm' v' => ?_, hstate ▸ h.idle, hstate ▸ h.held⟩
    have hidle : lit ≠ some (m', v') := by
      intro hlit
      exact (autState_ne hm').2 ((h.held m' v' hlit).2.symm.trans hbase)
    have hoff : s.bits (m'.coil v') = false := by
      have hiff := h.coils m' hm' v'
      simpa [hidle] using hiff
    rw [hbits, Function.update_apply]
    split
    · simp [hidle]
    · rw [Function.update_apply]
      split <;> simp [hidle, hoff]

/-- Since a state at the beginning of a run: a coil that is on has been on since, or the timer does
not run out in this run; and the current state has changed only where a coil has been released. -/
structure Since (m : MagnetDef) (s t : Layout MagnetBit) : Prop where
  coil : ∀ v, t.bits (m.coil v) = true → s.bits (m.coil v) = true ∨ t.timer ≠ 0
  current : t.bits (.currentState m.id) = s.bits (.currentState m.id) ∨
    ∃ v, s.bits (m.coil v) = true ∧ t.bits (m.coil v) = false ∧ t.bits (.currentState m.id) = v

theorem Since.refl (m : MagnetDef) (s : Layout MagnetBit) : Since m s s :=
  ⟨fun _ hcoil => .inl hcoil, .inl rfl⟩

theorem Since.step {m : MagnetDef} (hm : m ∈ a.magnets) {u : Layout MagnetBit} (h : Since m s t)
    (heffect : a.Effect t u) : Since m s u := by
  cases heffect with
  | quiet _ htimer hcoils hcurrent =>
    have hcoil : ∀ v, u.bits (m.coil v) = t.bits (m.coil v) := fun v => hcoils _
    refine ⟨fun v hon => ?_, ?_⟩
    · rcases h.coil v (hcoil v ▸ hon) with hbefore | hrunning
      · exact .inl hbefore
      · rcases htimer with hsame | hnew
        · exact .inr (hsame ▸ hrunning)
        · exact .inr hnew
    · rw [hcurrent]
      refine h.current.imp_right fun ⟨v, hbefore, hoff, hvalue⟩ => ⟨v, hbefore, ?_, hvalue⟩
      rw [hcoil, hoff]
  | pull m' hm' v' _ hcurrent _ htimer hbits =>
    have hsame : u.bits (.currentState m.id) = t.bits (.currentState m.id) := by
      rw [hbits, Function.update_of_ne MagnetBit.noConfusion]
    refine ⟨fun v _ => .inr htimer, ?_⟩
    rw [hsame]
    refine h.current.imp_right fun ⟨v, hbefore, hoff, hvalue⟩ => ⟨v, hbefore, ?_, hvalue⟩
    rw [hbits, Function.update_of_ne, hoff]
    intro heq
    obtain ⟨rfl, rfl⟩ := a.coils m hm m' hm' v v' heq
    rw [hvalue] at hcurrent
    cases v <;> cases hcurrent
  | release m' hm' v' _ hdone hcoil _ htimer hbits =>
    have hname : ∀ v, m.coil v ≠ .currentState m'.id := fun v => MagnetBit.noConfusion
    refine ⟨fun v hon => ?_, ?_⟩
    · rw [hbits, Function.update_of_ne (hname v), Function.update_apply] at hon
      split at hon
      · cases hon
      · exact (h.coil v hon).imp_right fun hrunning => htimer ▸ hrunning
    · by_cases heq : m = m'
      · subst heq
        refine .inr ⟨v', (h.coil v' hcoil).resolve_right (not_not_intro hdone), ?_, ?_⟩
        · rw [hbits, Function.update_of_ne (hname v'), Function.update_self]
        · rw [hbits, Function.update_self]
      · have hother : MagnetBit.currentState m.id ≠ .currentState m'.id := by
          intro hid
          exact heq (a.ids m hm m' hm' (MagnetBit.currentState.inj hid))
        have hsame : u.bits (.currentState m.id) = t.bits (.currentState m.id) := by
          rw [hbits, Function.update_of_ne hother, Function.update_of_ne MagnetBit.noConfusion]
        rw [hsame]
        refine h.current.imp_right fun ⟨v, hbefore, hoff, hvalue⟩ => ⟨v, hbefore, ?_, hvalue⟩
        rw [hbits, Function.update_of_ne (hname v), Function.update_apply]
        split
        · rfl
        · exact hoff
  | off m' hm' _ _ htimer hbits =>
    have hcoil : ∀ v, u.bits (m.coil v) = true → t.bits (m.coil v) = true := by
      intro v hon
      rw [hbits, Function.update_apply] at hon
      split at hon
      · cases hon
      · rw [Function.update_apply] at hon
        split at hon
        · cases hon
        · exact hon
    have hsame : u.bits (.currentState m.id) = t.bits (.currentState m.id) := by
      rw [hbits, Function.update_of_ne MagnetBit.noConfusion,
        Function.update_of_ne MagnetBit.noConfusion]
    refine ⟨fun v hon => ?_, ?_⟩
    · exact (h.coil v (hcoil v hon)).imp_right fun hrunning => htimer ▸ hrunning
    · rw [hsame]
      refine h.current.imp_right fun ⟨v, hbefore, hoff, hvalue⟩ => ⟨v, hbefore, ?_, hvalue⟩
      by_contra hon
      rw [hcoil v (by simpa using hon)] at hoff
      cases hoff

/-! ### Runs -/

/-- In the initial run coils are only switched off. -/
structure Resets (a : MagnetCommandAutomata) (s t : Layout MagnetBit) : Prop where
  state : t.state = s.state
  coils : ∀ m ∈ a.magnets, ∀ v, s.bits (m.coil v) = false → t.bits (m.coil v) = false

theorem Resets.refl (a : MagnetCommandAutomata) (s : Layout MagnetBit) : a.Resets s s :=
  ⟨rfl, fun _ _ _ hoff => hoff⟩

/-- The first operation of a magnet switches its coils off. -/
theorem off_of_first {m : MagnetDef} (hinit : s.state = UInt8.ofNat stInit)
    {op : MagnetOp} {rest : List MagnetOp} (hentry : magnetAutomataEntry m = op :: rest) :
    ∀ v, (s.exec op).bits (m.coil v) = false := by
  obtain ⟨rfl, -⟩ := List.cons.inj hentry
  intro v
  rw [s.exec_ifState hinit]
  cases v <;> cases m.defaultState <;>
    simp [Layout.perform, actReg, Layout.setBit, MagnetDef.coil, Function.update_apply]

theorem resets_entry {m : MagnetDef} {op : MagnetOp} (hm : m ∈ a.magnets)
    (hop : op ∈ magnetAutomataEntry m) (hinit : s.state = UInt8.ofNat stInit) :
    a.Resets s (s.exec op) := by
  have hbase : s.state ≠ UInt8.ofNat stBase := by rw [hinit]; decide
  have hheld : s.state ≠ UInt8.ofNat m.autState := by
    rw [hinit]
    exact (autState_ne hm).1.symm
  rcases s.exec_cases op with heq | ⟨hifs, heq⟩
  · rw [heq]
    exact .refl a s
  · rw [heq]
    simp only [magnetAutomataEntry, List.mem_cons, List.not_mem_nil, or_false] at hop
    rcases hop with rfl | rfl | rfl | rfl | rfl | rfl | rfl | rfl
    · cases m.defaultState <;>
      · refine ⟨rfl, fun m' hm' v hoff => ?_⟩
        have hcommand : m'.coil v ≠ .command m.id := MagnetBit.noConfusion
        simp [Layout.perform, actReg, Layout.setBit, Function.update_apply, hoff, hcommand]
    · refine ⟨rfl, fun m' hm' v hoff => ?_⟩
      have hname : m'.coil v ≠ .currentState m.id := MagnetBit.noConfusion
      simp [Layout.perform, Layout.setBit, hoff, hname]
    · refine ⟨rfl, fun m' hm' v hoff => ?_⟩
      have hname : m'.coil v ≠ .currentState m.id := MagnetBit.noConfusion
      simp [Layout.perform, Layout.setBit, hoff, hname]
    · exact absurd ((Layout.test_ifState s).mp (hifs _ (by simp))) hbase
    · exact absurd ((Layout.test_ifState s).mp (hifs _ (by simp))) hbase
    · exact absurd ((Layout.test_ifState s).mp (hifs _ (by simp))) hheld
    · exact absurd ((Layout.test_ifState s).mp (hifs _ (by simp))) hheld
    · exact absurd ((Layout.test_ifState s).mp (hifs _ (by simp))) hbase

/-- An operation in the initial run. -/
theorem resets_exec {op : MagnetOp} (hinit : s.state = UInt8.ofNat stInit)
    (hop : (∃ m ∈ a.magnets, op ∈ magnetAutomataEntry m) ∨
      (∃ c ∈ a.coupled, op ∈ magnetAutomataCouple c) ∨ op ∈ magnetAutomataFinal) :
    a.Resets s (s.exec op) := by
  rcases hop with ⟨m, hm, hop⟩ | ⟨c, -, hop⟩ | hop
  · exact resets_entry hm hop hinit
  · obtain ⟨hstate, -, hcoils, -⟩ := exec_couple hop s
    exact ⟨hstate, fun _ _ _ hoff => (hcoils _).trans hoff⟩
  · have hbase : s.state ≠ UInt8.ofNat stBase := by rw [hinit]; decide
    rw [List.mem_singleton.mp hop, s.exec_of_state_ne hbase (by simp)]
    exact .refl a s

/-- Coils that are off stay so in the initial run. -/
theorem resets_run {ops : List MagnetOp} (hinit : s.state = UInt8.ofNat stInit)
    (hops : ∀ op ∈ ops, (∃ m ∈ a.magnets, op ∈ magnetAutomataEntry m) ∨
      (∃ c ∈ a.coupled, op ∈ magnetAutomataCouple c) ∨ op ∈ magnetAutomataFinal) :
    a.Resets s (s.run ops) := by
  induction ops generalizing s with
  | nil => exact .refl a s
  | cons op ops ih =>
    have hfirst := resets_exec hinit (hops op List.mem_cons_self)
    have hrest := ih (hfirst.state.trans hinit) fun op' hop' =>
      hops op' (List.mem_cons_of_mem _ hop')
    exact ⟨hrest.state.trans hfirst.state,
      fun m hm v hoff => hrest.coils m hm v (hfirst.coils m hm v hoff)⟩

/-- After the initial run all coils are off. -/
theorem shows_initial (hinit : s.state = UInt8.ofNat stInit) : a.Shows (s.run a.body) none := by
  obtain ⟨front, hbody, hfront, hentries⟩ := a.exists_body
  have hstate : (s.run front).state = UInt8.ofNat stInit :=
    (resets_run hinit hfront).state.trans hinit
  have hoff : ∀ m ∈ a.magnets, ∀ v, (s.run front).bits (m.coil v) = false := by
    intro m hm v
    obtain ⟨before, after, rfl⟩ := hentries m hm
    obtain ⟨op, rest, hentry⟩ : ∃ op rest, magnetAutomataEntry m = op :: rest := ⟨_, _, rfl⟩
    rw [hentry] at hfront ⊢
    have hkept : a.Resets s (s.run before) :=
      resets_run hinit fun op' hop' => hfront op' (by simp [hop'])
    have hbefore := hkept.state.trans hinit
    have hop : (∃ m ∈ a.magnets, op ∈ magnetAutomataEntry m) ∨
        (∃ c ∈ a.coupled, op ∈ magnetAutomataCouple c) ∨ op ∈ magnetAutomataFinal :=
      hfront op (by simp)
    have hafter := (resets_exec hbefore hop).state.trans hbefore
    have hrest : a.Resets _ (((s.run before).exec op).run (rest ++ after)) :=
      resets_run hafter fun op' hop' => hfront op' (by
        rcases List.mem_append.mp hop' with hop' | hop' <;> simp [hop'])
    have hsplit : s.run (before ++ op :: rest ++ after) =
        ((s.run before).exec op).run (rest ++ after) := by
      simp [Layout.run]
    rw [hsplit]
    exact hrest.coils m hm v (off_of_first hbefore hentry v)
  have hlast : s.run a.body = { s.run front with state := UInt8.ofNat stBase } := by
    rw [hbody, Layout.run_append]
    exact Layout.exec_ifState _ hstate _
  rw [hlast]
  refine ⟨show UInt8.ofNat stBase ≠ _ by decide, fun m hm v => ?_,
    fun _ m hm => (autState_ne hm).2.symm, by simp⟩
  simp [hoff m hm v]

/-- In a run the lock is taken and given back, and current states change on releases only. -/
theorem shows_run {lit : Option (MagnetDef × Bool)} (h : a.Shows s lit) :
    (∃ lit', a.Shows (s.run a.body) lit') ∧ ∀ m ∈ a.magnets, Since m s (s.run a.body) := by
  have hkeeps : ∃ lit', a.Shows (s.run a.body) lit' ∧
      ∀ m ∈ a.magnets, Since m s (s.run a.body) := by
    refine Layout.run_keeps (I := fun t => ∃ lit', a.Shows t lit' ∧ ∀ m ∈ a.magnets, Since m s t) s
      ⟨lit, h, fun m _ => .refl m s⟩ fun op hop t ⟨lit', hshows, hsince⟩ => ?_
    have heffect := effect_exec hop hshows.running
    obtain ⟨lit'', hshows'⟩ := hshows.step heffect
    exact ⟨lit'', hshows', fun m hm => (hsince m hm).step hm heffect⟩
  obtain ⟨lit', hshows, hsince⟩ := hkeeps
  exact ⟨⟨lit', hshows⟩, hsince⟩

theorem Shows.outside {lit : Option (MagnetDef × Bool)} (h : a.Shows s lit)
    (houtside : a.Outside s t) : a.Shows t lit where
  running := houtside.state ▸ h.running
  coils m hm v := by
    rw [houtside.coils m hm v]
    exact h.coils m hm v
  idle := houtside.state ▸ h.idle
  held := houtside.state ▸ h.held

theorem Reachable.shows (h : a.Reachable s) : ∃ lit, a.Shows s lit := by
  induction h with
  | initial hinit => exact ⟨none, shows_initial hinit⟩
  | run _ ih =>
    obtain ⟨lit, hshows⟩ := ih
    exact (shows_run hshows).1
  | outside _ houtside ih =>
    obtain ⟨lit, hshows⟩ := ih
    exact ⟨lit, hshows.outside houtside⟩

end MagnetCommandAutomata

/-- After the initial run at most one coil is on, which is one of the magnet whose state the
automaton is in; and a run changes the current state of a magnet only where it releases a coil. -/
theorem one_coil_energised (a : MagnetCommandAutomata) {s : Layout MagnetBit}
    (h : a.Reachable s) :
    (∀ m ∈ a.magnets, ∀ m' ∈ a.magnets, ∀ v v', s.bits (m.coil v) = true →
      s.bits (m'.coil v') = true → m = m' ∧ v = v') ∧
    (∀ m ∈ a.magnets, (s.bits (m.coil false) = true ∨ s.bits (m.coil true) = true) ↔
      s.state = UInt8.ofNat m.autState) ∧
    (s.state = UInt8.ofNat stBase → ∀ m ∈ a.magnets, ∀ v, s.bits (m.coil v) = false) ∧
    ∀ m ∈ a.magnets,
      (s.run a.body).bits (.currentState m.id) ≠ s.bits (.currentState m.id) →
      ∃ v, s.bits (m.coil v) = true ∧ (s.run a.body).bits (m.coil v) = false ∧
        (s.run a.body).bits (.currentState m.id) = v := by
  obtain ⟨lit, hshows⟩ := h.shows
  refine ⟨fun m hm m' hm' v v' hon hon' => ?_, fun m hm => ⟨fun hon => ?_, fun hstate => ?_⟩,
    fun hbase m hm v => ?_, fun m hm hchange => ?_⟩
  · have hlit := (hshows.coils m hm v).mp hon
    rw [(hshows.coils m' hm' v').mp hon'] at hlit
    obtain ⟨rfl, rfl⟩ := Prod.mk.inj (Option.some.inj hlit)
    exact ⟨rfl, rfl⟩
  · rcases hon with hon | hon
    · exact (hshows.held m _ ((hshows.coils m hm _).mp hon)).2
    · exact (hshows.held m _ ((hshows.coils m hm _).mp hon)).2
  · cases hlit : lit with
    | none => exact absurd hstate (hshows.idle hlit m hm)
    | some on =>
      obtain ⟨m', v⟩ := on
      obtain ⟨hm', hheld⟩ := hshows.held m' v hlit
      obtain rfl := MagnetCommandAutomata.autState_inj hm hm' (hstate.symm.trans hheld)
      have hon := (hshows.coils m hm v).mpr hlit
      cases v with
      | false => exact .inl hon
      | true => exact .inr hon
  · by_contra hon
    have hlit := (hshows.coils m hm v).mp (by simpa using hon)
    exact (MagnetCommandAutomata.autState_ne hm).2
      ((hshows.held m v hlit).2.symm.trans hbase)
  · exact ((MagnetCommandAutomata.shows_run hshows).2 m hm).current.resolve_left hchange

/-- Two magnets, and a coupled one that follows the second. -/
def twoMagnets : MagnetCommandAutomata where
  magnets := [⟨0, 0, 1, 10, false⟩, ⟨1, 2, 3, 11, true⟩]
  coupled := [⟨0, 1, true⟩]
  userStates := by decide
  ids := by decide
  states := by decide
  coils := by decide

/-- Before the first run. -/
def magnetsOff : Layout MagnetBit := ⟨0, 0, 0, fun _ => false, fun _ _ => 0⟩

/-- The run after the initial one pulls the first magnet, which closes. -/
theorem twoMagnets_one_coil :
    ((magnetsOff.run twoMagnets.body).run twoMagnets.body).bits (.foreign 0) = true ∧
    ((magnetsOff.run twoMagnets.body).run twoMagnets.body).bits (.foreign 3) = false := by
  have hclosing :
      ((magnetsOff.run twoMagnets.body).run twoMagnets.body).bits (.foreign 0) = true := by
    set_option maxRecDepth 4000 in
    decide
  have hfirst : (⟨0, 0, 1, 10, false⟩ : MagnetDef) ∈ twoMagnets.magnets := by decide
  have hsecond : (⟨1, 2, 3, 11, true⟩ : MagnetDef) ∈ twoMagnets.magnets := by decide
  have hinitial : twoMagnets.Reachable (magnetsOff.run twoMagnets.body) := .initial rfl
  have hreachable := hinitial.run
  generalize (magnetsOff.run twoMagnets.body).run twoMagnets.body = s at hclosing hreachable ⊢
  refine ⟨hclosing, Bool.eq_false_iff.mpr fun hon => ?_⟩
  have hsame := (one_coil_energised twoMagnets hreachable).1 _ hfirst _ hsecond false true
    hclosing hon
  exact absurd hsame.2 (by decide)

end OpenmrnCue.Automata
