import OpenmrnCue.Library.LateBinding
import OpenmrnCue.Library.Trace
import OpenmrnCue.Automata.Track

/-! `TrainSchedule` of `control-logic`: the automaton that drives one train from block to block.
Its calls share reserved local variables, which each call binds to the variables of its own blocks
when it runs; the variables that it uses by `ImportVariable` are named here. -/

namespace OpenmrnCue.TrainSchedule

open LateBinding
open Automata (stInit stBase)

/-! ## States and variables -/

def stWaiting : Nat := 2
def stReadyToGo : Nat := 3
def stRequestGreen : Nat := 4
def stGreenWait : Nat := 5
def stGreenFailed : Nat := 6
def stTurnoutFailed : Nat := 7
def stTestCondition2 : Nat := 8
def stRequestTransition : Nat := 9
def stTransitionDone : Nat := 10
def stTurnout : Nat := 11
def stTestCondition : Nat := 12
def stGreenRequested : Nat := 13
def stBeforeReverseWait : Nat := 14
def stReverseSendCommand : Nat := 15
def stReverseDoneWait : Nat := 16
def stFrozen : Nat := 17

/-- The reserved variables of a schedule. -/
inductive Local where
  | currentBlockDetector
  | routingBlockRequestGreen
  | permaBlockRouteOut
  | routingBlockRouteOut
  | currentBlockPermaloc
  | currentBlockRoutingloc
  | currentDirection
  | nextBlockPermaloc
  | nextBlockRoutingloc
  | nextBlockRouteIn
  | nextBlockDetector
  | nextBlockBlocked
  | magnetCommand
  | magnetState
  | magnetLocked
  | permitRequest
  | permitGranted
  | permitTaken
deriving DecidableEq, Repr

/-- The key of a helper bit: the request of a client, or a name. -/
inductive HelperKey (X : Type) where
  | request (var : X)
  | named (name : String)
deriving DecidableEq, Repr

/-- The variables that a schedule allocates, where locations go by the names of blocks, and those of
the layout. -/
inductive Var (X : Type) where
  | permaloc (location : String)
  | routingloc (location : String)
  | helper (key : HelperKey X)
  | isReversed
  | lastSetReversed
  | isFrozen
  | needReverse
  | reqStop
  | reqGo
  | isMoving
  | layout (var : X)
deriving DecidableEq, Repr

/-- `SignalBlock`. -/
structure SignalBlock (X : Type) where
  name : String
  dstDetector : X
  srcDetector : X
  routeOut : X
  routeIn : X
  requestGreen : X
  autoBlocked : X
deriving DecidableEq, Repr

/-- `RequestClientInterface`. -/
structure RequestClient (X : Type) where
  request : X
  granted : X
  taken : X
deriving DecidableEq, Repr

/-- The variables of a `MagnetBase`. -/
structure Magnet (X : Type) where
  command : X
  currentState : X
  locked : X
deriving DecidableEq, Repr

/-! ## Operations -/

/-- Conditions on the automaton and the train. -/
inductive Query where
  | ifState (state : Nat)
  | ifTimerDone
  | ifSetSpeed
deriving DecidableEq, Repr

/-- Actions on the automaton and for the train. -/
inductive Command where
  | actState (state : Nat)
  | actTimer (seconds : Nat)
  | actSetId (id : UInt64)
  | actLoadSpeed (isForward : Bool) (mph : Nat)
  | actSpeedReverse
deriving DecidableEq, Repr

/-- The state and the timer of the automaton. -/
structure Control where
  state : UInt8
  timer : UInt8
deriving DecidableEq, Repr

/-- What `IfSetSpeed` sends to the train is left out; it always holds. -/
def control : LateBinding.Control Control Query Command where
  holds
    | .ifState state, c => c.state == UInt8.ofNat state
    | .ifTimerDone, c => c.timer == 0
    | .ifSetSpeed, _ => true
  apply
    | .actState state, c => { c with state := UInt8.ofNat state }
    | .actTimer seconds, c => { c with timer := UInt8.ofNat seconds }
    | _, c => c

abbrev Reg (X : Type) := Register Local (Var X)
abbrev If (X : Type) := Guard Local (Var X) Query
abbrev Act (X : Type) := LateBinding.Action Local (Var X) Command
abbrev TrainOp (X : Type) := Operation Local (Var X) Query Command
abbrev TrainState (X : Type) := State Local (Var X) Control

section Instructions

variable {X : Type}

instance : Coe Local (Reg X) := ⟨.slot⟩

abbrev ifState (state : Nat) : If X := .control (.ifState state)
abbrev ifTimerDone : If X := .control .ifTimerDone
abbrev ifSetSpeed : If X := .control .ifSetSpeed
abbrev ifReg (var : Reg X) (value : Bool) : If X := .bit var value
abbrev ifReg0 (var : Reg X) : If X := ifReg var false
abbrev ifReg1 (var : Reg X) : If X := ifReg var true

abbrev actState (state : Nat) : Act X := .control (.actState state)
abbrev actTimer (seconds : Nat) : Act X := .control (.actTimer seconds)
abbrev actSetId (id : UInt64) : Act X := .control (.actSetId id)
abbrev actLoadSpeed (isForward : Bool) (mph : Nat) : Act X := .control (.actLoadSpeed isForward mph)
abbrev actSpeedReverse : Act X := .control .actSpeedReverse
abbrev actGetValueToSpeed (var : Reg X) : Act X := .use var
abbrev actReg (var : Reg X) (value : Bool) : Act X := .write var value
abbrev actReg0 (var : Reg X) : Act X := actReg var false
abbrev actReg1 (var : Reg X) : Act X := actReg var true
abbrev actImportVariable (var : Var X) (localVar : Local) : Act X := .bind localVar var

/-- The `Maybe` conditions and actions. -/
def maybe {α : Type} (enabled : Bool) (x : α) : List α := if enabled then [x] else []

/-- `DefCopy`. -/
def defCopy (src dst : Reg X) : List (TrainOp X) :=
  [⟨[ifReg0 src, ifReg1 dst], [actReg0 dst]⟩, ⟨[ifReg1 src, ifReg0 dst], [actReg1 dst]⟩]

end Instructions

/-! ## Calls of `RunTransition` -/

/-- The arguments of `AddBlockTransitionOnPermit`, and the lock that `WithRouteLock` has set.  The
condition asks for values of variables of the layout. -/
structure Transition (X : Type) where
  source : SignalBlock X
  dest : SignalBlock X
  client : Option (RequestClient X)
  condition : List (X × Bool)
  eager : Bool
  lock : Option X
deriving DecidableEq, Repr

/-- What `RunTransition` calls. -/
inductive Call (X : Type) where
  | transition (t : Transition X)
  | stopTrainAt (dest : SignalBlock X)
  | stopAndReverseAtStub (inSignal : SignalBlock X)
  | switchTurnout (magnet : Magnet X) (desiredState : Bool)
deriving DecidableEq, Repr

/-- A schedule: its body, its train, and the variables that may be missing. -/
structure Schedule (X : Type) where
  body : List (Call X)
  trainNodeId : UInt64
  speedVar : Option X
  resetRoutes : Option X
deriving DecidableEq, Repr

/-- `AddDirectBlockTransition`. -/
def addDirectBlockTransition {X : Type} (source dest : SignalBlock X) (condition : List (X × Bool))
    (eager : Bool) : Transition X :=
  ⟨source, dest, none, condition, eager, none⟩

/-- The transition of a call. -/
def Call.transition? {X : Type} : Call X → Option (Transition X)
  | .transition t => some t
  | _ => none

/-- The blocks of which a call uses the location. -/
def Call.locations {X : Type} : Call X → List String
  | .transition t => [t.source.name, t.dest.name]
  | .stopTrainAt dest => [dest.name]
  | .stopAndReverseAtStub inSignal => [inSignal.name]
  | .switchTurnout _ _ => []

/-- The block that a call leaves in `current_location_`. -/
def Call.source? {X : Type} : Call X → Option String
  | .transition t => some t.source.name
  | .stopTrainAt dest => some dest.name
  | .stopAndReverseAtStub inSignal => some inSignal.name
  | .switchTurnout _ _ => none

/-- The key of the direction bit. -/
def Transition.key {X : Type} (t : Transition X) : HelperKey X :=
  match t.client with
  | some client => .request client.request
  | none => .named ("transition_" ++ t.source.name ++ "_" ++ t.dest.name)

def Transition.hasPermit {X : Type} (t : Transition X) : Bool := t.client.isSome

namespace Schedule

variable {X : Type} (a : Schedule X)

def transitions : List (Transition X) := a.body.filterMap Call.transition?

/-- The locations of the schedule. -/
def locations : List String := a.body.flatMap Call.locations

/-- `num_directions_`, as the preamble has counted it. -/
def numDirections (location : String) : Nat :=
  a.transitions.countP fun t => t.source.name == location

/-- The call imports a direction bit. -/
def importsDirection (t : Transition X) : Bool :=
  t.hasPermit || decide (1 < a.numDirections t.source.name)

/-- `respect_direction_`, which a call for the location sets in the preamble or the body. -/
def respectDirection (location : String) : Bool :=
  a.transitions.any fun t => t.source.name == location && a.importsDirection t

open Local

/-- `MapCurrentBlockPermaloc`. -/
def mapCurrentBlockPermaloc (source : SignalBlock X) : List (TrainOp X) :=
  [⟨[], [actImportVariable (.permaloc source.name) currentBlockPermaloc]⟩,
    ⟨[], [actImportVariable (.routingloc source.name) currentBlockRoutingloc]⟩]

/-- `RouteLockAcquire`: the conditions. -/
def lockFree (lock : Option X) : List (If X) :=
  lock.toList.map fun v => ifReg0 (.var (.layout v))

/-- `RouteLockAcquire`: the actions. -/
def acquireLock (lock : Option X) : List (Act X) :=
  lock.toList.map fun v => actReg1 (.var (.layout v))

/-- `RouteLockRelease`. -/
def releaseLock (lock : Option X) : List (Act X) :=
  lock.toList.map fun v => actReg0 (.var (.layout v))

/-- The condition of a transition. -/
def runCondition (condition : List (X × Bool)) : List (If X) :=
  condition.map fun p => ifReg (.var (.layout p.1)) p.2

section AddBlockTransitionOnPermit

variable (t : Transition X)

/-- The imports for the block, up to `perma_block_route_out_`. -/
def importCurrent : List (TrainOp X) :=
  mapCurrentBlockPermaloc t.source ++
  maybe (a.importsDirection t) ⟨[], [actImportVariable (.helper t.key) currentDirection]⟩ ++
  [⟨[], [actImportVariable (.layout t.dest.autoBlocked) nextBlockBlocked]⟩,
    ⟨[ifReg1 currentBlockPermaloc],
      [actImportVariable (.layout t.source.routeOut) permaBlockRouteOut,
        actImportVariable (.layout t.source.srcDetector) currentBlockDetector]⟩]

/-- `current_block_routingloc_` where the transition is eager. -/
def updateRoutingloc : List (TrainOp X) :=
  -- A permaloc from nowhere.
  [⟨[ifReg1 currentBlockPermaloc, ifReg0 currentBlockRoutingloc, ifReg0 permaBlockRouteOut],
      [actReg1 currentBlockRoutingloc]⟩,
    -- A routingloc without a route.
    ⟨[ifReg1 currentBlockRoutingloc],
      [actImportVariable (.layout t.source.routeIn) nextBlockRouteIn]⟩,
    ⟨[ifState stWaiting, ifReg1 currentBlockRoutingloc, ifReg0 currentBlockPermaloc,
        ifReg0 nextBlockRouteIn],
      [actReg0 currentBlockRoutingloc]⟩]

def importNextPermaloc : TrainOp X :=
  ⟨[ifReg1 currentBlockPermaloc], [actImportVariable (.permaloc t.dest.name) nextBlockPermaloc]⟩

/-- The step of the train where the transition is eager. -/
def advancePermaloc : TrainOp X :=
  ⟨[ifReg1 (.var .isMoving), ifReg1 currentBlockPermaloc, ifReg1 currentBlockDetector,
      ifReg1 permaBlockRouteOut] ++
      maybe (a.respectDirection t.source.name) (ifReg currentDirection true) ++
      [ifReg0 currentBlockRoutingloc],
    [actReg0 currentBlockPermaloc] ++
      maybe (a.respectDirection t.source.name) (actReg currentDirection false) ++
      [actReg1 nextBlockPermaloc,
        actImportVariable (.layout t.dest.dstDetector) currentBlockDetector]⟩

/-- The imports for the route. -/
def importRouting : List (TrainOp X) :=
  [⟨[ifReg1 currentBlockRoutingloc],
      [actImportVariable (.layout t.source.requestGreen) routingBlockRequestGreen,
        actImportVariable (.layout t.source.routeOut) routingBlockRouteOut]⟩,
    ⟨[ifReg1 currentBlockRoutingloc],
      [actImportVariable (.layout t.dest.dstDetector) nextBlockDetector,
        actImportVariable (.routingloc t.dest.name) nextBlockRoutingloc,
        actImportVariable (.layout t.dest.routeIn) nextBlockRouteIn]⟩] ++
  t.client.toList.map fun client =>
    ⟨[], [actImportVariable (.layout client.request) permitRequest,
      actImportVariable (.layout client.granted) permitGranted,
      actImportVariable (.layout client.taken) permitTaken]⟩

/-- The test of the conditions. -/
def testCondition : List (TrainOp X) :=
  [⟨[ifState stTestCondition], [actState stWaiting]⟩,
    ⟨[ifState stTestCondition2], [actState stWaiting]⟩,
    ⟨[ifState stWaiting, ifReg1 currentBlockRoutingloc], [actState stTestCondition]⟩,
    ⟨[ifState stTestCondition] ++ maybe (!t.eager) (ifReg currentBlockDetector true) ++
        [ifReg0 nextBlockDetector, ifReg0 routingBlockRouteOut, ifReg0 nextBlockRouteIn,
          ifReg0 nextBlockBlocked, ifReg0 (.var .isFrozen)] ++ runCondition t.condition,
      [actState stTestCondition2]⟩]

/-- The request of a permit. -/
def requestPermit : List (TrainOp X) :=
  if t.hasPermit then
    [⟨[ifState stTestCondition2], [actReg1 permitRequest]⟩,
      ⟨[ifState stTestCondition], [actReg0 permitRequest]⟩,
      -- Another direction was taken.
      ⟨[ifReg1 currentBlockRoutingloc, ifReg1 routingBlockRouteOut], [actReg0 permitRequest]⟩]
  else []

/-- The decision to go. -/
def decideToGo : List (TrainOp X) :=
  [⟨[ifState stTestCondition], [actState stWaiting]⟩,
    ⟨[ifState stTestCondition2] ++ maybe t.hasPermit (ifReg permitRequest true) ++
        maybe t.hasPermit (ifReg permitGranted true) ++ lockFree t.lock,
      acquireLock t.lock ++ maybe t.hasPermit (actReg permitRequest false) ++
        maybe t.hasPermit (actReg permitGranted false) ++
        maybe t.hasPermit (actReg permitTaken true) ++
        maybe (a.respectDirection t.source.name) (actReg currentDirection true) ++
        [actState stReadyToGo]⟩,
    ⟨[ifState stTestCondition2], [actState stWaiting]⟩] ++
  maybe (a.respectDirection t.source.name)
    ⟨[ifState stWaiting, ifReg1 currentBlockRoutingloc, ifReg1 currentDirection],
      [actReg0 currentDirection]⟩

/-- The permaloc or routingloc that the transition goes by. -/
def goesBy : Reg X := if t.eager then currentBlockRoutingloc else currentBlockPermaloc

/-- The move of the train, when its route is set. -/
def requestTransition : TrainOp X :=
  ⟨[ifState stRequestTransition, ifReg1 (goesBy t)] ++
      maybe (a.respectDirection t.source.name) (ifReg currentDirection true),
    releaseLock t.lock ++ maybe (!t.eager) (actReg0 currentBlockPermaloc) ++
      [actReg0 currentBlockRoutingloc] ++ maybe (!t.eager) (actReg1 nextBlockPermaloc) ++
      [actReg1 nextBlockRoutingloc] ++
      maybe (!t.eager && a.respectDirection t.source.name) (actReg currentDirection false) ++
      [actState stTransitionDone]⟩

/-- The end of an attempt where the route was not set. -/
def greenFailed : TrainOp X :=
  ⟨[ifState stGreenFailed, ifReg1 (goesBy t)] ++
      maybe (a.respectDirection t.source.name) (ifReg currentDirection true),
    releaseLock t.lock ++ [actState stWaiting]⟩

/-- `AddBlockTransitionOnPermit`. -/
def addBlockTransitionOnPermit : List (TrainOp X) :=
  a.importCurrent t ++
  (if t.eager then updateRoutingloc t else defCopy currentBlockPermaloc currentBlockRoutingloc) ++
  [importNextPermaloc t] ++
  maybe t.eager (a.advancePermaloc t) ++
  importRouting t ++ testCondition t ++ requestPermit t ++ a.decideToGo t ++
  [a.requestTransition t, a.greenFailed t]

end AddBlockTransitionOnPermit

/-- `StopTrainAt`. -/
def stopTrainAt (dest : SignalBlock X) : List (TrainOp X) :=
  mapCurrentBlockPermaloc dest ++
  [⟨[ifReg1 currentBlockPermaloc],
    [actImportVariable (.layout dest.dstDetector) currentBlockDetector]⟩]

/-- `StopAndReverseAtStub`. -/
def stopAndReverseAtStub (inSignal : SignalBlock X) : List (TrainOp X) :=
  mapCurrentBlockPermaloc inSignal ++
  [⟨[ifReg1 currentBlockPermaloc],
      [actImportVariable (.layout inSignal.dstDetector) currentBlockDetector]⟩,
    ⟨[ifReg1 (.var .isMoving), ifReg1 currentBlockPermaloc], [actReg1 (.var .needReverse)]⟩,
    ⟨[ifState stWaiting, ifReg1 currentBlockPermaloc, ifReg1 currentBlockDetector,
        ifReg1 (.var .needReverse)],
      [actReg0 (.var .needReverse), actState stBeforeReverseWait, actTimer 3]⟩,
    ⟨[ifState stBeforeReverseWait, ifReg1 currentBlockPermaloc, ifTimerDone,
        ifReg0 (.var .isReversed)],
      [actReg1 (.var .isReversed), actState stReverseSendCommand]⟩,
    ⟨[ifState stBeforeReverseWait, ifReg1 currentBlockPermaloc, ifTimerDone,
        ifReg1 (.var .isReversed)],
      [actReg0 (.var .isReversed), actState stReverseSendCommand]⟩,
    ⟨[ifState stReverseSendCommand, ifReg1 currentBlockPermaloc],
      [actSetId a.trainNodeId, actLoadSpeed true 0]⟩,
    ⟨[ifState stReverseSendCommand, ifReg1 currentBlockPermaloc, ifReg1 (.var .isReversed)],
      [actSpeedReverse]⟩,
    ⟨[ifState stReverseSendCommand, ifReg1 currentBlockPermaloc, ifReg1 (.var .isReversed)],
      [actReg1 (.var .lastSetReversed)]⟩,
    ⟨[ifState stReverseSendCommand, ifReg1 currentBlockPermaloc, ifReg0 (.var .isReversed)],
      [actReg0 (.var .lastSetReversed)]⟩,
    ⟨[ifState stReverseSendCommand, ifReg1 currentBlockPermaloc, ifSetSpeed],
      [actState stReverseDoneWait, actTimer 3]⟩,
    ⟨[ifState stReverseDoneWait, ifReg1 currentBlockPermaloc, ifTimerDone], [actState stWaiting]⟩]

/-- `AddCurrentOutgoingConditions`, for the location that is the current one. -/
def addCurrentOutgoingConditions (location : String) : List (If X) :=
  [ifReg1 currentBlockRoutingloc] ++
    maybe (a.respectDirection location) (ifReg1 currentDirection)

/-- `SwitchTurnout`, for the location that is the current one. -/
def switchTurnout (location : String) (magnet : Magnet X) (desiredState : Bool) :
    List (TrainOp X) :=
  let outgoing := ifState stTurnout :: a.addCurrentOutgoingConditions location
  [⟨outgoing, [actImportVariable (.layout magnet.command) magnetCommand,
      actImportVariable (.layout magnet.currentState) magnetState,
      actImportVariable (.layout magnet.locked) magnetLocked]⟩,
    ⟨outgoing ++ [ifReg0 magnetLocked], [actReg magnetCommand desiredState]⟩,
    ⟨outgoing ++ [ifReg magnetState (!desiredState)], [actState stTurnoutFailed]⟩]

/-- A call, and the call that has set the current location. -/
structure Placed (X : Type) where
  current : Call X
  call : Call X
deriving DecidableEq, Repr

/-- The calls with their current locations.  `SwitchTurnout` asserts that there is one. -/
def place : Option (Call X) → List (Call X) → Option (List (Placed X))
  | _, [] => some []
  | current, .switchTurnout magnet desiredState :: rest => do
    let current ← current
    return ⟨current, .switchTurnout magnet desiredState⟩ :: (← place (some current) rest)
  | _, call :: rest => do
    return ⟨call, call⟩ :: (← place (some call) rest)

/-- The operations of a call. -/
def render (p : Placed X) : List (TrainOp X) :=
  match p.call with
  | .transition t => a.addBlockTransitionOnPermit t
  | .stopTrainAt dest => stopTrainAt dest
  | .stopAndReverseAtStub inSignal => a.stopAndReverseAtStub inSignal
  | .switchTurnout magnet desiredState =>
    match p.current.source? with
    | some location => a.switchTurnout location magnet desiredState
    | none => []

/-! ## The automaton -/

/-- `HandleBaseStates`. -/
def handleBaseStates : List (TrainOp X) :=
  [⟨[ifState stRequestGreen, ifReg0 routingBlockRequestGreen],
      [actReg1 routingBlockRequestGreen, actState stGreenRequested]⟩,
    ⟨[ifState stGreenRequested, ifReg0 routingBlockRequestGreen, ifReg0 routingBlockRouteOut],
      [actState stGreenFailed]⟩,
    ⟨[ifState stGreenRequested, ifReg1 routingBlockRouteOut, ifReg1 (.var .isMoving)],
      [actState stRequestTransition]⟩,
    ⟨[ifState stGreenRequested, ifReg1 routingBlockRouteOut],
      [actTimer 2, actState stGreenWait]⟩,
    ⟨[ifState stGreenWait, ifTimerDone], [actState stRequestTransition]⟩,
    ⟨[ifState stTransitionDone, ifReg0 (.var .isMoving)], [actReg1 (.var .reqGo)]⟩,
    ⟨[ifState stTransitionDone], [actState stWaiting]⟩,
    ⟨[ifReg1 (.var .isMoving), ifReg1 currentBlockDetector], [actReg1 (.var .reqStop)]⟩,
    ⟨[ifState stTurnout], [actState stRequestGreen]⟩,
    ⟨[ifState stReadyToGo], [actState stTurnout]⟩] ++
  (a.resetRoutes.toList.map fun v =>
    ⟨[ifState stTurnoutFailed, ifReg1 (.var (.layout v))], [actState stWaiting]⟩) ++
  [⟨[ifState stTurnoutFailed], [actState stTurnout]⟩,
    ⟨[ifState stWaiting, ifReg1 (.var .isFrozen)], [actState stFrozen]⟩,
    ⟨[ifState stFrozen, ifReg0 (.var .isFrozen)], [actState stWaiting]⟩]

/-- `SendTrainCommands`. -/
def sendTrainCommands : List (TrainOp X) :=
  [⟨[], [actSetId a.trainNodeId]⟩,
    match a.speedVar with
    | some v => ⟨[ifReg1 (.var .reqGo)], [actGetValueToSpeed (.var (.layout v))]⟩
    | none => ⟨[ifReg1 (.var .reqGo)], [actLoadSpeed true 40]⟩,
    ⟨[ifReg1 (.var .reqGo), ifReg1 (.var .isReversed)], [actSpeedReverse]⟩,
    ⟨[ifReg1 (.var .reqGo), ifReg1 (.var .isReversed)], [actReg1 (.var .lastSetReversed)]⟩,
    ⟨[ifReg1 (.var .reqGo), ifReg0 (.var .isReversed)], [actReg0 (.var .lastSetReversed)]⟩,
    ⟨[ifReg1 (.var .reqGo), ifSetSpeed], [actReg0 (.var .reqGo), actReg1 (.var .isMoving)]⟩,
    -- The train has another direction than it was sent.
    ⟨[ifState stWaiting, ifReg1 (.var .isReversed), ifReg0 (.var .lastSetReversed)],
      [actReg1 (.var .reqStop)]⟩,
    ⟨[ifState stWaiting, ifReg0 (.var .isReversed), ifReg1 (.var .lastSetReversed)],
      [actReg1 (.var .reqStop)]⟩,
    ⟨[ifReg1 (.var .reqStop)], [actLoadSpeed true 0]⟩,
    ⟨[ifReg1 (.var .reqStop), ifReg1 (.var .isReversed)], [actSpeedReverse]⟩,
    ⟨[ifReg1 (.var .reqStop), ifReg1 (.var .isReversed)], [actReg1 (.var .lastSetReversed)]⟩,
    ⟨[ifReg1 (.var .reqStop), ifReg0 (.var .isReversed)], [actReg0 (.var .lastSetReversed)]⟩,
    ⟨[ifReg1 (.var .reqStop), ifSetSpeed], [actReg0 (.var .reqStop), actReg0 (.var .isMoving)]⟩]

/-- `HandleInit`. -/
def handleInit : List (TrainOp X) :=
  [⟨[ifState stBase], [actReg0 (.var .lastSetReversed), actState stWaiting]⟩]

/-- `HandleInitState` of the automaton. -/
def handleInitState : List (TrainOp X) := [⟨[ifState stInit], [actState stBase]⟩]

/-- The plugins behind `RunTransition`, by their numbers. -/
def afterTransition : List (TrainOp X) :=
  a.handleBaseStates ++ a.sendTrainCommands ++ handleInit ++ handleInitState

/-- The body of the automaton. -/
def ops (calls : List (Placed X)) : List (TrainOp X) := calls.flatMap a.render ++ a.afterTransition

variable [DecidableEq X]

/-- A run of the automaton, which begins without bound variables. -/
def runOnce (calls : List (Placed X)) (s : TrainState X) : Option (TrainState X) :=
  run control { s with bound := fun _ => none } (a.ops calls)

end Schedule

end OpenmrnCue.TrainSchedule
