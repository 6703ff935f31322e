import Mathlib.Data.Int.Basic
import OpenmrnCue.Automata.Binding
import OpenmrnCue.Automata.Layout
import OpenmrnCue.Automata.Signal

/-! A line of straight tracks between two signal pieces, bound by `BindSequence`.  Each piece has an
automaton of its own.  The automata share the bits of the line and run one at a time, in any order;
in between, the track beyond the two outer ends changes what is not part of the line. -/

namespace OpenmrnCue.Automata

/-! ## Pieces -/

/-- The variables that a signal piece is constructed with, by their numbers among the variables of
the layout. -/
structure SignalVariables where
  requestGreen : Nat
  signal : Option Nat
  routeNoStop : Nat
  externalOccupancy : Option Nat
deriving DecidableEq, Repr

/-- A straight track, with the number of the variable that it has its occupancy from. -/
inductive StraightPiece where
  | short (externalOccupancy : Option Nat)
  | long (externalOccupancy : Option Nat)
  | withDetector (detector : Nat)
deriving DecidableEq, Repr

/-- A piece of the line. -/
inductive LinePiece where
  | straight (p : StraightPiece)
  | signal (v : SignalVariables)
deriving DecidableEq, Repr

/-- What `LookupNextDetector` and `LookupFarDetector` of an interface return. -/
structure Lookup where
  next : Option Nat
  far : Option Nat
deriving DecidableEq, Repr

namespace LinePiece

/-- `LookupNextDetector` and `LookupFarDetector` from a side of a piece, where the other side is
bound to an interface with these lookups. -/
def lookup (p : LinePiece) (side : Side) (behind : Lookup) : Lookup :=
  match p with
  | .straight (.short _) => behind
  | .straight (.long _) => ⟨behind.next, behind.next⟩
  | .straight (.withDetector detector) => ⟨some detector, behind.far⟩
  | .signal _ => ⟨behind.next, if side = .a then none else behind.far⟩

/-- The plugins of a piece that is bound so. -/
def plugins (p : LinePiece) (t : Track Side StraightRoute) : AutomataPlugin Side StraightRoute :=
  match p with
  | .straight (.short external) => (⟨t, external.map .foreign⟩ : StraightTrack).shortPlugins
  | .straight (.long external) => (⟨t, external.map .foreign⟩ : StraightTrack).longPlugins
  | .straight (.withDetector detector) =>
    (⟨⟨t, none⟩, .foreign detector⟩ : StraightTrackWithDetector).plugins
  | .signal v => (⟨⟨t, v.externalOccupancy.map .foreign⟩, .foreign v.requestGreen,
      v.signal.map .foreign, .foreign v.routeNoStop⟩ : SignalPiece).plugins

/-- The detectors that a piece reads on its own account. -/
def detectors : LinePiece → List Nat
  | .straight (.short external) => external.toList
  | .straight (.long external) => external.toList
  | .straight (.withDetector detector) => [detector]
  | .signal v => v.externalOccupancy.toList

end LinePiece

/-- A line: the signals A and B with the straight tracks between them, and the lookups of the
interfaces that the outer sides of A and B are bound to. -/
structure Line where
  signalA : SignalVariables
  straight : List StraightPiece
  signalB : SignalVariables
  before : Lookup
  after : Lookup
  hasResetRoutes : Bool

/-- An interface: the number of its piece, and its side. -/
abbrev LineInterface := ℤ × Side

/-- The interfaces of so many pieces, from a number on. -/
def lineInterfaces (i : ℤ) : Nat → List (LineInterface × LineInterface)
  | 0 => []
  | n + 1 => ((i, .a), (i, .b)) :: lineInterfaces (i + 1) n

/-- The variables of a line: those of interfaces, those of pieces, those of the layout, and
`reset_routes`. -/
inductive LineBit where
  | interface (i : LineInterface) (v : InterfaceVariable)
  | piece (i : ℤ) (var : Bit Side StraightRoute)
  | foreign (n : Nat)
  | resetRoutes
deriving DecidableEq

/-- The variable that a piece calls so, whose sides are bound to these interfaces. -/
def resolve (i : ℤ) (sideA sideB : LineInterface) : Bit Side StraightRoute → LineBit
  | .interface (.side s) v => .interface (i, s) v
  | .interface (.other 0) v => .interface sideA v
  | .interface (.other _) v => .interface sideB v
  | .foreign n => .foreign n
  | .resetRoutes => .resetRoutes
  | var => .piece i var

def Condition.map {V W : Type} (f : V → W) : Condition V → Condition W
  | .ifState state => .ifState state
  | .ifReg0 var => .ifReg0 (f var)
  | .ifReg1 var => .ifReg1 (f var)
  | .ifTimerDone => .ifTimerDone
  | .ifTimerNotDone => .ifTimerNotDone
  | .ifAspect value => .ifAspect value

def Action.map {V W G : Type} (f : V → W) : Action V G → Action W G
  | .actReg0 var => .actReg0 (f var)
  | .actReg1 var => .actReg1 (f var)
  | .actState state => .actState state
  | .actTimer seconds => .actTimer seconds
  | .actImportVariable var localVar => .actImportVariable var (f localVar)
  | .actSetId id => .actSetId id
  | .actSetAspect value => .actSetAspect value
  | .actUpAspect => .actUpAspect
  | .actSetValue var offset value => .actSetValue (f var) offset value
  | .actSetValueFromAspect var offset => .actSetValueFromAspect (f var) offset
  | .actGetValueToAspect var offset => .actGetValueToAspect (f var) offset

def Op.map {V W G : Type} (f : V → W) (op : Op V G) : Op W G :=
  ⟨op.ifs.map (·.map f), op.acts.map (·.map f)⟩

namespace Line

variable (l : Line)

/-- A, the straight tracks, and B, which have the numbers from 0 on. -/
def pieces : List LinePiece := 
  .signal l.signalA :: (l.straight.map .straight ++ [.signal l.signalB])

/-- The number of B. -/
def last : Nat := l.straight.length + 1

/-- The connections that `BindSequence` makes. -/
def connections : Option (Connections LineInterface) :=
  Connections.unbound.call
    (.bindSequence (some (-1, .b)) (lineInterfaces 0 (l.last + 1)) (some (l.last + 1, .a)))

/-- The lookups of what side a of a piece is bound to. -/
def lookupBehindA (i : Nat) : Lookup :=
  (l.pieces.take i).foldl (fun behind p => p.lookup .b behind) l.before

/-- The lookups of what side b of a piece is bound to. -/
def lookupBehindB (i : Nat) : Lookup :=
  (l.pieces.drop (i + 1)).foldr (fun p behind => p.lookup .a behind) l.after

/-- What a piece is bound to. -/
def track (i : Nat) : Track Side StraightRoute where
  binding
    | .a => ⟨.other 0, (l.lookupBehindA i).next.map .foreign, (l.lookupBehindA i).far.map .foreign⟩
    | .b => ⟨.other 1, (l.lookupBehindB i).next.map .foreign, (l.lookupBehindB i).far.map .foreign⟩
  hasResetRoutes := l.hasResetRoutes

/-- The body of the automaton of a piece, over the variables of the line. -/
def body (i : Nat) : Option (List (Op LineBit Empty)) := do
  let piece ← l.pieces[i]?
  let connections ← l.connections
  let sideA ← connections.binding (i, .a)
  let sideB ← connections.binding (i, .b)
  let ops ← (piece.plugins (l.track i)).runAll
  some (ops.map (·.map (resolve i sideA sideB)))

end Line

/-! ### Connections of the pieces -/

/-- The calls of `Bind` for so many pieces, from a number on. -/
def lineLinks (i : ℤ) : Nat → List (Link LineInterface)
  | 0 => [.bind (i - 1, .b) (i, .a)]
  | n + 1 => .bind (i - 1, .b) (i, .a) :: lineLinks (i + 1) n

theorem bindSequence_lineInterfaces (i : ℤ) (n : Nat) :
    bindSequence (some (i - 1, .b)) (lineInterfaces i n) (some (i + n, .a)) =
      some (lineLinks i n) := by
  induction n generalizing i with
  | zero => simp [lineInterfaces, bindSequence, lineLinks]
  | succ n ih =>
    have hrest := ih (i + 1)
    rw [show i + 1 - 1 = i by omega, show i + 1 + (n : ℤ) = i + ((n + 1 : Nat) : ℤ) by
      push_cast; omega] at hrest
    simp only [lineInterfaces, bindSequence, hrest, lineLinks]
    rfl

/-- The links connect neighbours. -/
theorem run_lineLinks {c c' : Connections LineInterface} {i : ℤ} {n : Nat}
    (h : Trace.run Connections.link c (lineLinks i n) = some c') :
    (∀ j : ℤ, i ≤ j → j ≤ i + n → c'.binding (j, .a) = some (j - 1, .b)) ∧
      (∀ j : ℤ, i ≤ j → j ≤ i + n → c'.binding (j - 1, .b) = some (j, .a)) ∧
      ∀ z, (∀ j : ℤ, i ≤ j → z ≠ (j, .a) ∧ z ≠ (j - 1, .b)) → c'.binding z = c.binding z := by
  induction n generalizing c i with
  | zero =>
    cases h
    refine ⟨fun j hj hj' => ?_, fun j hj hj' => ?_, fun z hz => ?_⟩
    · obtain rfl : j = i := by push_cast at hj'; omega
      simp [Connections.binding_bind]
    · obtain rfl : j = i := by push_cast at hj'; omega
      simp [Connections.binding_bind]
    · obtain ⟨ha, hb⟩ := hz i le_rfl
      rw [Connections.binding_bind, if_neg ha, if_neg hb]
  | succ n ih =>
    obtain ⟨hsideA, hsideB, hother⟩ := ih h
    have hfirst : ∀ z : LineInterface, z = (i, .a) ∨ z = (i - 1, .b) →
        c'.binding z = (c.bind (i - 1, .b) (i, .a)).binding z := by
      rintro z hz
      refine hother z fun j hj => ?_
      rcases hz with rfl | rfl <;> simp <;> omega
    refine ⟨fun j hj hj' => ?_, fun j hj hj' => ?_, fun z hz => ?_⟩
    · by_cases hji : j = i
      · subst hji
        rw [hfirst _ (.inl rfl), Connections.binding_bind, if_pos rfl]
      · exact hsideA j (by omega) (by push_cast at hj'; omega)
    · by_cases hji : j = i
      · subst hji
        rw [hfirst _ (.inr rfl), Connections.binding_bind, if_neg (by simp), if_pos rfl]
      · exact hsideB j (by omega) (by push_cast at hj'; omega)
    · obtain ⟨ha, hb⟩ := hz i le_rfl
      rw [hother z fun j hj => hz j (by omega), Connections.binding_bind, if_neg ha, if_neg hb]

theorem exists_run_lineLinks (c : Connections LineInterface) (i : ℤ) (n : Nat) :
    ∃ c', Trace.run Connections.link c (lineLinks i n) = some c' := by
  induction n generalizing c i with
  | zero => exact ⟨_, rfl⟩
  | succ n ih => exact ih (c.bind (i - 1, .b) (i, .a)) (i + 1)

/-- `BindSequence` binds each of so many pieces to its neighbours. -/
theorem exists_bound_lineInterfaces (n : Nat) : ∃ c,
    Connections.unbound.call
      (.bindSequence (some (-1, .b)) (lineInterfaces 0 n) (some ((n : ℤ), .a))) = some c ∧
    ∀ i : Nat, i < n → c.binding (i, .a) = some ((i : ℤ) - 1, .b) ∧
      c.binding (i, .b) = some ((i : ℤ) + 1, .a) := by
  obtain ⟨c, hc⟩ := exists_run_lineLinks .unbound 0 n
  have hlinks := bindSequence_lineInterfaces 0 n
  rw [show (0 : ℤ) - 1 = -1 by omega, show (0 : ℤ) + (n : ℤ) = n by omega] at hlinks
  obtain ⟨hsideA, hsideB, -⟩ := run_lineLinks hc
  refine ⟨c, ?_, fun i hi => ⟨hsideA i (by omega) (by omega), ?_⟩⟩
  · simp only [Connections.call, BindCall.links, hlinks]
    exact hc
  · have := hsideB ((i : ℤ) + 1) (by omega) (by omega)
    rwa [Int.add_sub_cancel] at this

/-- What the body of a piece that is bound to its neighbours is rendered from. -/
theorem rendered_of_bound {connections : Option (Connections LineInterface)} {i : Nat}
    {plugins : AutomataPlugin Side StraightRoute} {ops : List (Op LineBit Empty)}
    (hbound : ∃ c, connections = some c ∧ c.binding (i, .a) = some ((i : ℤ) - 1, .b) ∧
      c.binding (i, .b) = some ((i : ℤ) + 1, .a))
    (h : (do
      let connections ← connections
      let sideA ← connections.binding (i, .a)
      let sideB ← connections.binding (i, .b)
      let ops ← plugins.runAll
      some (ops.map (·.map (resolve i sideA sideB)))) = some ops) :
    ∃ rendered, plugins.runAll = some rendered ∧
      ops = rendered.map (·.map (resolve i ((i : ℤ) - 1, .b) ((i : ℤ) + 1, .a))) := by
  obtain ⟨c, rfl, hsideA, hsideB⟩ := hbound
  obtain ⟨_, hc', h⟩ := Option.bind_eq_some_iff.mp h
  cases hc'
  obtain ⟨_, hsideA', h⟩ := Option.bind_eq_some_iff.mp h
  obtain rfl := Option.some.inj (hsideA.symm.trans hsideA')
  obtain ⟨_, hsideB', h⟩ := Option.bind_eq_some_iff.mp h
  obtain rfl := Option.some.inj (hsideB.symm.trans hsideB')
  obtain ⟨rendered, hrendered, h⟩ := Option.bind_eq_some_iff.mp h
  exact ⟨rendered, hrendered, (Option.some.inj h).symm⟩

theorem Line.exists_connections (l : Line) : ∃ c, l.connections = some c ∧
    ∀ i : Nat, i ≤ l.last → c.binding (i, .a) = some ((i : ℤ) - 1, .b) ∧
      c.binding (i, .b) = some ((i : ℤ) + 1, .a) := by
  obtain ⟨c, hc, hneighbours⟩ := exists_bound_lineInterfaces (l.last + 1)
  refine ⟨c, ?_, fun i hi => hneighbours i (by omega)⟩
  rw [show ((l.last + 1 : Nat) : ℤ) = (l.last : ℤ) + 1 by omega] at hc
  exact hc

/-- What a body is rendered from. -/
theorem Line.body_eq_some {l : Line} {i : Nat} {ops : List (Op LineBit Empty)}
    (h : l.body i = some ops) : ∃ piece rendered, l.pieces[i]? = some piece ∧
      (piece.plugins (l.track i)).runAll = some rendered ∧
      ops = rendered.map (·.map (resolve i ((i : ℤ) - 1, .b) ((i : ℤ) + 1, .a))) := by
  obtain ⟨c, hc, hneighbours⟩ := l.exists_connections
  obtain ⟨piece, hpiece, h⟩ := Option.bind_eq_some_iff.mp h
  have hi : i ≤ l.last := by
    have := (List.getElem?_eq_some_iff.mp hpiece).1
    simp only [pieces, List.length_cons, List.length_append, List.length_map, List.length_nil]
      at this
    simp only [last]
    omega
  obtain ⟨rendered, hrendered, hops⟩ := rendered_of_bound ⟨c, hc, hneighbours i hi⟩ h
  exact ⟨piece, rendered, hpiece, hrendered, hops⟩

/-! ## Runs -/

/-- The registers of the automata, and the variables of the line. -/
structure LineState where
  state : ℤ → UInt8
  timer : ℤ → UInt8
  aspect : ℤ → UInt8
  bits : LineBit → Bool
  values : LineBit → Nat → UInt8

namespace LineState

variable (s : LineState)

/-- What the automaton of a piece works on. -/
def layout (i : ℤ) : Layout LineBit := ⟨s.state i, s.timer i, s.aspect i, s.bits, s.values⟩

def store (i : ℤ) (t : Layout LineBit) : LineState where
  state := Function.update s.state i t.state
  timer := Function.update s.timer i t.timer
  aspect := Function.update s.aspect i t.aspect
  bits := t.bits
  values := t.values

/-- An action of a piece. -/
def perform (i : ℤ) (a : Action LineBit Empty) : LineState :=
  s.store i (Layout.perform a (s.layout i))

/-- An operation of a piece. -/
def exec (i : ℤ) (op : Op LineBit Empty) : LineState :=
  if op.ifs.all (Layout.test · (s.layout i)) then op.acts.foldl (fun s a => s.perform i a) s else s

/-- The operations of a piece, one after the other. -/
def run (i : ℤ) (ops : List (Op LineBit Empty)) : LineState :=
  ops.foldl (fun s op => s.exec i op) s

end LineState

namespace Line

variable (l : Line)

/-- The variables of the line that are not those of the outer ends: nothing else writes them. -/
def Inner : LineBit → Prop
  | .interface (i, side) _ =>
    0 ≤ i ∧ i ≤ l.last ∧ (i, side) ≠ (0, .a) ∧ (i, side) ≠ ((l.last : ℤ), .b)
  | .piece _ _ => True
  | .foreign _ => False
  | .resetRoutes => True

/-- A state after the initialisation of all pieces: there are no routes and no requests. -/
structure Initial (s : LineState) : Prop where
  state : ∀ i, s.state i = UInt8.ofNat stBase
  pieces : ∀ i var, s.bits (.piece i var) = false
  interfaces : ∀ (i : ℤ) side v, 0 ≤ i → i ≤ l.last → v ≠ .inNextSignal1 → v ≠ .inNextSignal2 →
    s.bits (.interface (i, side) v) = false
  resetRoutes : s.bits .resetRoutes = false

/-- A change from outside: requests and answers at the outer ends, and the variables of the layout,
detectors and `request_green` among them.  Timers run. -/
structure Outside (s s' : LineState) : Prop where
  state : s'.state = s.state
  inner : ∀ var, l.Inner var → s'.bits var = s.bits var

/-- The states between two runs, where a condition holds throughout: also between the operations of
a run. -/
inductive Reachable (throughout : LineState → Prop) : LineState → Prop
  | initial {s : LineState} (h : l.Initial s) (hs : throughout s) : Reachable throughout s
  | run {s : LineState} (h : Reachable throughout s) {i : Nat} {ops : List (Op LineBit Empty)}
      (hbody : l.body i = some ops)
      (hs : ∀ past future, ops = past ++ future → throughout (s.run i past)) :
      Reachable throughout (s.run i ops)
  | outside {s s' : LineState} (h : Reachable throughout s) (houtside : l.Outside s s')
      (hs : throughout s') : Reachable throughout s'

/-- The detectors of the line, and those that the lookups beyond its ends return. -/
def detectors : List Nat :=
  l.before.next.toList ++ l.before.far.toList ++ l.pieces.flatMap (·.detectors) ++
    l.after.next.toList ++ l.after.far.toList

/-- There is no train on the line. -/
def DetectorsFree (s : LineState) : Prop := ∀ d ∈ l.detectors, s.bits (.foreign d) = false

end Line

end OpenmrnCue.Automata
