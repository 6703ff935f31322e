import OpenmrnCue.Automata.Operations

/-! The automata of track pieces of `control-logic.cc`: straight tracks, turnouts and double slip
switches.  A piece has its own variables, and it names those of the pieces that it is bound to.  The
body of its automaton is what its plugins render, in the order of their numbers. -/

namespace OpenmrnCue.Automata

/-! ## Variables -/

/-- The variables of a `CtrlTrackInterface`. -/
inductive InterfaceVariable where
  | outTrySetRoute
  | inRouteSetSuccess
  | inRouteSetFailure
  | outRouteReleased
  | inNextSignal1
  | inNextSignal2
deriving DecidableEq, Repr

/-- A `CtrlTrackInterface`: that of a side of the piece, or that of another piece. -/
inductive CtrlTrackInterface (S : Type) where
  | side (s : S)
  | other (n : Nat)
deriving DecidableEq, Repr

/-- The variables that a piece with these sides and routes may use: those of interfaces, those of
the piece, `reset_routes`, and the detectors and magnets of the layout. -/
inductive Bit (S R : Type) where
  | interface (i : CtrlTrackInterface S) (v : InterfaceVariable)
  | routeSet (r : R)
  | routePending (r : R)
  | anyRouteSet
  | tmpRouteSettingInProgress
  | simulatedOccupancy
  | tmpSeenTrainInNext
  | tmpShadowTrainInFar
  | turnoutState
  | detectorNext (s : S)
  | detectorFar (s : S)
  | resetRoutes
  | foreign (n : Nat)
deriving DecidableEq, Repr

/-- The operations of a piece.  The variables are imported where they are used. -/
abbrev PieceOp (S R : Type) := Op (Bit S R) Empty

/-- The conditions that an `OpCallback` adds. -/
abbrev Conditions (S R : Type) := List (Condition (Bit S R))

/-- The actions that an `OpCallback` adds. -/
abbrev Actions (S R : Type) := List (Action (Bit S R) Empty)

/-- `binding()` of the interface of a side, with what `LookupNextDetector` and `LookupFarDetector`
of it return. -/
structure Binding (S R : Type) where
  interface : CtrlTrackInterface S
  nextDetector : Option (Bit S R)
  farDetector : Option (Bit S R)

/-- What a piece is bound to, and whether `reset_routes` is set. -/
structure Track (S R : Type) where
  binding : S → Binding S R
  hasResetRoutes : Bool

def stInit : Nat := 0

def stBase : Nat := 1

/-! ## Plugins -/

section Plugins

variable {S R : Type}

/-- `HandleInitState`. -/
def handleInitState : List (PieceOp S R) := [⟨[.ifState stInit], [.actState stBase]⟩]

/-- The callbacks of an `AutomataPlugin`, by increasing number.  A callback that dereferences a null
pointer renders nothing. -/
abbrev AutomataPlugin (S R : Type) := List (Nat × Option (List (PieceOp S R)))

namespace AutomataPlugin

/-- The constructor. -/
def init : AutomataPlugin S R := [(10000, some handleInitState)]

/-- `AddAutomataPlugin`. -/
def addAutomataPlugin (plugins : AutomataPlugin S R) (n : Nat) (cb : Option (List (PieceOp S R))) :
    AutomataPlugin S R :=
  plugins.takeWhile (·.1 ≤ n) ++ (n, cb) :: plugins.dropWhile (·.1 ≤ n)

/-- `RemoveAutomataPlugins`. -/
def removeAutomataPlugins (plugins : AutomataPlugin S R) (n : Nat) : AutomataPlugin S R :=
  plugins.filter (·.1 ≠ n)

/-- `RunAll`. -/
def runAll (plugins : AutomataPlugin S R) : Option (List (PieceOp S R)) := do
  some (← plugins.mapM (·.2)).flatten

end AutomataPlugin

end Plugins

/-! ## Occupancy, signals and routes -/

section Pieces

variable {S R : Type}

/-- `DefCopy`. -/
def defCopy (src dst : Bit S R) (condition : Conditions S R) : List (PieceOp S R) :=
  [⟨condition ++ ([.ifReg0 src, .ifReg1 dst] : Conditions S R), [.actReg0 dst]⟩,
    ⟨condition ++ ([.ifReg1 src, .ifReg0 dst] : Conditions S R), [.actReg1 dst]⟩]

/-- `ReleaseRouteCallback`. -/
def releaseRouteCallback (sideOut : S) (routeSet : Bit S R) : Actions S R :=
  [.actReg1 (.interface (.side sideOut) .outRouteReleased), .actReg0 routeSet]

/-- `CopySignals`. -/
def copySignals (src dst : CtrlTrackInterface S) (condition : Conditions S R) :
    List (PieceOp S R) :=
  defCopy (.interface src .inNextSignal1) (.interface dst .inNextSignal1) condition ++
    defCopy (.interface src .inNextSignal2) (.interface dst .inNextSignal2) condition

/-- `ProxyOneDetector`. -/
def proxyOneDetector (condition : Conditions S R) (next : Option (Bit S R)) (proxy : Bit S R) :
    List (PieceOp S R) :=
  match next with
  | some det =>
    [⟨condition ++ [.ifReg0 det], [.actReg0 proxy]⟩, ⟨condition ++ [.ifReg1 det], [.actReg1 proxy]⟩]
  | none => [⟨condition, [.actReg0 proxy]⟩]

/-- `ProxyDetector`. -/
def proxyDetector (condition : Conditions S R) (detectorNext detectorFar : Bit S R)
    (binding : Binding S R) : List (PieceOp S R) :=
  proxyOneDetector condition binding.nextDetector detectorNext ++
    proxyOneDetector condition binding.farDetector detectorFar

/-- `TurnoutDirectionCheck` of `turnout_state_`. -/
def turnoutDirectionCheck (set : Bool) : Conditions S R :=
  if set then [.ifReg1 .turnoutState] else [.ifReg0 .turnoutState]

/-- `PopulateAnyRouteSet`. -/
def populateAnyRouteSet (routes : List R) : List (PieceOp S R) :=
  ⟨routes.map fun r => .ifReg0 (.routeSet r), [.actReg0 .anyRouteSet]⟩ ::
    routes.map fun r => ⟨[.ifReg1 (.routeSet r)], [.actReg1 .anyRouteSet]⟩

variable (t : Track S R)

/-- `SimulateOccupancy`.  The detector behind `past` is dereferenced. -/
def simulateOccupancy [DecidableEq S] [DecidableEq R] (routeSet : Bit S R) (past next : S)
    (releaseCb : Actions S R) : Option (List (PieceOp S R)) := do
  let previousOcc ← (t.binding past).nextDetector
  let farDetector := (t.binding next).farDetector
  let nextDetector := (t.binding next).nextDetector
  let shadow := match farDetector with
    | some far =>
      [⟨[.ifReg1 routeSet, .ifReg1 previousOcc, .ifReg0 .simulatedOccupancy, .ifReg0 far],
          [.actReg0 .tmpShadowTrainInFar]⟩,
        ⟨[.ifReg1 routeSet, .ifReg1 previousOcc, .ifReg0 .simulatedOccupancy, .ifReg1 far],
          [.actReg1 .tmpShadowTrainInFar]⟩]
    | none => []
  let arrival :=
    [⟨[.ifReg1 routeSet, .ifReg1 previousOcc, .ifReg0 .simulatedOccupancy],
      [.actReg1 .simulatedOccupancy, .actReg0 .tmpSeenTrainInNext]⟩]
  let reset := if t.hasResetRoutes then
      [⟨[.ifReg1 .resetRoutes], [.actReg0 .tmpSeenTrainInNext, .actReg0 .tmpShadowTrainInFar]⟩]
    else []
  let passedFar := match farDetector with
    | some far =>
      [⟨[.ifReg1 routeSet, .ifReg1 far, .ifReg0 .tmpShadowTrainInFar],
        [.actReg1 .tmpShadowTrainInFar, .actReg0 .simulatedOccupancy] ++ releaseCb⟩]
    | none => []
  let passedNext := match nextDetector with
    | some next =>
      if nextDetector ≠ farDetector then
        [⟨[.ifReg1 routeSet, .ifReg1 .simulatedOccupancy, .ifReg1 next],
            [.actReg1 .tmpSeenTrainInNext]⟩,
          ⟨[.ifReg1 routeSet, .ifReg1 .simulatedOccupancy, .ifReg1 .tmpSeenTrainInNext,
              .ifReg0 next],
            [.actReg0 .simulatedOccupancy] ++ releaseCb⟩]
      else []
    | none => []
  some (shadow ++ arrival ++ reset ++ passedFar ++ passedNext)

/-- `SimulateRoute`, with the conditions of `condition_cb`. -/
def simulateRoute (condition : Conditions S R) (before after : S) (currentPending : Bit S R)
    (currentRoute conflictingRoutes : List (Bit S R)) : List (PieceOp S R) :=
  let inTrySetRoute : Bit S R := .interface (t.binding before).interface .outTrySetRoute
  let inRouteSetSuccess : Bit S R := .interface (.side before) .inRouteSetSuccess
  let inRouteSetFailure : Bit S R := .interface (.side before) .inRouteSetFailure
  let outRouteSetSuccess : Bit S R := .interface (t.binding after).interface .inRouteSetSuccess
  let outRouteSetFailure : Bit S R := .interface (t.binding after).interface .inRouteSetFailure
  let outTrySetRoute : Bit S R := .interface (.side after) .outTrySetRoute
  let initialization : List (PieceOp S R) :=
    [⟨[.ifState stInit],
      [.actReg0 outTrySetRoute, .actReg0 .tmpRouteSettingInProgress, .actReg0 inRouteSetSuccess,
        .actReg0 inRouteSetFailure]⟩]
  let reset : List (PieceOp S R) := if t.hasResetRoutes then
      [⟨[.ifReg1 .resetRoutes],
        ([.actReg0 outTrySetRoute, .actReg0 .tmpRouteSettingInProgress, .actReg0 inRouteSetSuccess,
          .actReg0 inRouteSetFailure] : Actions S R) ++ currentRoute.map Action.actReg0⟩]
    else []
  let reject : Actions S R :=
    [.actReg1 inRouteSetFailure, .actReg0 inRouteSetSuccess, .actReg0 inTrySetRoute]
  initialization ++ reset ++
    ([⟨condition ++ ([.ifReg1 inTrySetRoute, .ifReg1 .tmpRouteSettingInProgress] : Conditions S R),
        reject⟩,
      ⟨condition ++ ([.ifReg1 inTrySetRoute, .ifReg1 outTrySetRoute] : Conditions S R), reject⟩,
      -- The request is propagated, under the lock.
      ⟨condition ++
          ([.ifReg1 inTrySetRoute, .ifReg0 .tmpRouteSettingInProgress] : Conditions S R) ++
          currentRoute.map Condition.ifReg0 ++ conflictingRoutes.map Condition.ifReg0,
        [.actReg1 .tmpRouteSettingInProgress, .actReg1 currentPending, .actReg0 inTrySetRoute,
          .actReg0 outRouteSetSuccess, .actReg0 outRouteSetFailure, .actReg1 outTrySetRoute]⟩,
      ⟨condition ++ ([.ifReg1 inTrySetRoute, .ifReg0 .tmpRouteSettingInProgress] : Conditions S R),
        reject⟩,
      -- The answers to the propagated request.
      ⟨[.ifReg1 currentPending, .ifReg1 outRouteSetFailure],
        [.actReg0 currentPending, .actReg0 outRouteSetFailure, .actReg0 outRouteSetSuccess,
          .actReg0 .tmpRouteSettingInProgress, .actReg0 inRouteSetSuccess,
          .actReg1 inRouteSetFailure]⟩,
      ⟨[.ifReg1 currentPending, .ifReg1 outRouteSetSuccess],
        ([.actReg0 currentPending, .actReg0 outRouteSetFailure, .actReg0 outRouteSetSuccess,
          .actReg0 .tmpRouteSettingInProgress, .actReg0 inRouteSetFailure,
          .actReg1 inRouteSetSuccess] : Actions S R) ++ currentRoute.map Action.actReg1⟩] :
      List (PieceOp S R))

end Pieces

/-! ## Straight tracks -/

/-- The sides of a straight track. -/
inductive Side where
  | a
  | b
deriving DecidableEq, Repr

/-- The routes of a straight track. -/
inductive StraightRoute where
  | ab
  | ba
deriving DecidableEq, Repr

/-- `StraightTrack`. -/
structure StraightTrack extends Track Side StraightRoute where
  externalOccupancy : Option (Bit Side StraightRoute)

namespace StraightTrack

variable (p : StraightTrack)

/-- `CopyOccupancy`, of the variable that `external_occupancy_` points to. -/
def copyOccupancy (src : Bit Side StraightRoute) : List (PieceOp Side StraightRoute) :=
  [⟨[.ifReg1 src, .ifReg0 .simulatedOccupancy], [.actReg1 .simulatedOccupancy]⟩,
    ⟨[.ifReg0 src, .ifReg1 .simulatedOccupancy, .ifReg1 (.routeSet .ab)],
      releaseRouteCallback .b (.routeSet .ab)⟩,
    ⟨[.ifReg0 src, .ifReg1 .simulatedOccupancy, .ifReg1 (.routeSet .ba)],
      releaseRouteCallback .a (.routeSet .ba)⟩,
    ⟨[.ifReg0 src, .ifReg1 .simulatedOccupancy], [.actReg0 .simulatedOccupancy]⟩]

/-- `SimulateAllOccupancy`. -/
def simulateAllOccupancy : Option (List (PieceOp Side StraightRoute)) :=
  match p.externalOccupancy with
  | some src => some (copyOccupancy src)
  | none => do
    let ab ← simulateOccupancy p.toTrack (.routeSet .ab) .a .b
      (releaseRouteCallback .b (.routeSet .ab))
    let ba ← simulateOccupancy p.toTrack (.routeSet .ba) .b .a
      (releaseRouteCallback .a (.routeSet .ba))
    some (ab ++ ba)

/-- `CopySignalState`. -/
def copySignalState : List (PieceOp Side StraightRoute) :=
  copySignals (.side .a) (p.binding .b).interface [] ++
    copySignals (.side .b) (p.binding .a).interface []

/-- `SimulateAllRoutes`. -/
def simulateAllRoutes : List (PieceOp Side StraightRoute) :=
  ⟨[.ifState stInit],
    [.actReg1 (.routeSet .ab), .actReg0 (.routeSet .ab), .actReg0 (.routeSet .ba),
      .actReg0 (.routePending .ab), .actReg0 (.routePending .ba)]⟩ ::
    simulateRoute p.toTrack [] .a .b (.routePending .ab) [.routeSet .ab] [.routeSet .ba] ++
    simulateRoute p.toTrack [] .b .a (.routePending .ba) [.routeSet .ba] [.routeSet .ab]

/-- The plugins of the constructor of `StraightTrack`. -/
def plugins : AutomataPlugin Side StraightRoute :=
  (AutomataPlugin.init.addAutomataPlugin 20 p.simulateAllOccupancy).addAutomataPlugin 23
    (some p.copySignalState)

/-- The plugins of a `StraightTrackShort`. -/
def shortPlugins : AutomataPlugin Side StraightRoute :=
  p.plugins.addAutomataPlugin 30 (some p.simulateAllRoutes)

/-- The plugins of a `StraightTrackLong`. -/
def longPlugins : AutomataPlugin Side StraightRoute :=
  p.plugins.addAutomataPlugin 30 (some p.simulateAllRoutes)

end StraightTrack

/-- `StraightTrackWithDetector`. -/
structure StraightTrackWithDetector extends StraightTrack where
  detector : Bit Side StraightRoute

namespace StraightTrackWithDetector

variable (p : StraightTrackWithDetector)

/-- `DetectorOccupancy`. -/
def detectorOccupancy : List (PieceOp Side StraightRoute) :=
  [⟨[.ifReg1 p.detector], [.actReg1 .simulatedOccupancy]⟩,
    ⟨[.ifReg0 p.detector, .ifReg1 .simulatedOccupancy],
      [.actReg0 (.routeSet .ab), .actReg0 (.routeSet .ba), .actReg0 .simulatedOccupancy]⟩]

/-- `DetectorRoute`. -/
def detectorRoute : List (PieceOp Side StraightRoute) :=
  ⟨[.ifState stInit],
    [.actReg0 (.routeSet .ab), .actReg0 (.routeSet .ba), .actReg0 (.routePending .ab),
      .actReg0 (.routePending .ba)]⟩ ::
    simulateRoute p.toTrack [] .a .b (.routePending .ab) [.routeSet .ab]
      [.routeSet .ba, p.detector] ++
    simulateRoute p.toTrack [] .b .a (.routePending .ba) [.routeSet .ba]
      [.routeSet .ab, p.detector]

/-- The plugins of the constructor. -/
def plugins : AutomataPlugin Side StraightRoute :=
  ((p.toStraightTrack.plugins.removeAutomataPlugins 20).addAutomataPlugin 20
    (some p.detectorOccupancy)).addAutomataPlugin 30 (some p.detectorRoute)

end StraightTrackWithDetector

/-! ## Turnouts -/

/-- The sides of a turnout. -/
inductive TurnoutSide where
  | points
  | closed
  | thrown
deriving DecidableEq, Repr

/-- The routes of a turnout. -/
inductive TurnoutRoute where
  | pc
  | cp
  | pt
  | tp
deriving DecidableEq, Repr

/-- `TurnoutBase::State`. -/
inductive TurnoutState where
  | closed
  | thrown
  | dontcare
deriving DecidableEq, Repr

/-- `TurnoutBase::Direction`. -/
structure TurnoutDirection where
  source : TurnoutSide
  target : TurnoutSide
  route : TurnoutRoute
  stateCondition : TurnoutState
deriving DecidableEq, Repr

/-- `TurnoutBase`, with its `directions_`. -/
structure TurnoutBase extends Track TurnoutSide TurnoutRoute where
  directions : List TurnoutDirection

namespace TurnoutBase

variable (p : TurnoutBase)

/-- The `directions_` of the constructor. -/
def allDirections : List TurnoutDirection :=
  [⟨.points, .closed, .pc, .closed⟩, ⟨.points, .thrown, .pt, .thrown⟩,
    ⟨.closed, .points, .cp, .dontcare⟩, ⟨.thrown, .points, .tp, .dontcare⟩]

/-- `TurnoutOccupancy`. -/
def turnoutOccupancy : Option (List (PieceOp TurnoutSide TurnoutRoute)) := do
  some (← p.directions.mapM fun d => simulateOccupancy p.toTrack (.routeSet d.route) d.source
    d.target (releaseRouteCallback d.target (.routeSet d.route))).flatten

/-- `ProxySignals`. -/
def proxySignals : List (PieceOp TurnoutSide TurnoutRoute) :=
  copySignals (.side .points) (p.binding .closed).interface [] ++
    copySignals (.side .points) (p.binding .thrown).interface [] ++
    copySignals (.side .closed) (p.binding .points).interface (turnoutDirectionCheck false) ++
    copySignals (.side .thrown) (p.binding .points).interface (turnoutDirectionCheck true)

/-- `ProxyDetectors`. -/
def proxyDetectors : List (PieceOp TurnoutSide TurnoutRoute) :=
  proxyDetector (turnoutDirectionCheck false) (.detectorNext .points) (.detectorFar .points)
      (p.binding .closed) ++
    proxyDetector (turnoutDirectionCheck true) (.detectorNext .points) (.detectorFar .points)
      (p.binding .thrown)

/-- The callback for the `state_condition` of a direction. -/
def stateCallback : TurnoutState → Conditions TurnoutSide TurnoutRoute
  | .closed => turnoutDirectionCheck false
  | .thrown => turnoutDirectionCheck true
  | .dontcare => []

/-- `TurnoutRoute`. -/
def turnoutRoute : List (PieceOp TurnoutSide TurnoutRoute) :=
  (p.directions.map fun d =>
    ⟨[.ifState stInit], [.actReg0 (.routeSet d.route), .actReg0 (.routePending d.route)]⟩) ++
    p.directions.flatMap fun d => simulateRoute p.toTrack (stateCallback d.stateCondition)
      d.source d.target (.routePending d.route) [.routeSet d.route, .anyRouteSet] []

/-- The plugins of the constructor.  `ClearAutomataVariables` renders nothing. -/
def plugins : AutomataPlugin TurnoutSide TurnoutRoute :=
  ((((((AutomataPlugin.init.addAutomataPlugin 20 p.turnoutOccupancy).addAutomataPlugin 23
    (some p.proxySignals)).addAutomataPlugin 24 (some [])).addAutomataPlugin 25
    (some p.proxyDetectors)).addAutomataPlugin 29 (some [])).addAutomataPlugin 30
    (some p.turnoutRoute)).addAutomataPlugin 35
    (some (populateAnyRouteSet (p.directions.map (·.route))))

end TurnoutBase

/-- `MagnetBase`: the numbers of `current_state` and `locked` among the variables of the layout. -/
structure MagnetBase where
  currentState : Nat
  locked : Nat
deriving DecidableEq, Repr

/-- `MovableTurnout::CopyLocked`, which is `MovableDKW::CopyLocked` as well. -/
def copyLocked {S R : Type} (magnet : MagnetBase) : List (PieceOp S R) :=
  defCopy .anyRouteSet (.foreign magnet.locked) []

/-- `MovableTurnout`. -/
structure MovableTurnout where
  track : Track TurnoutSide TurnoutRoute
  magnet : MagnetBase

namespace MovableTurnout

variable (p : MovableTurnout)

/-- `CopyState`. -/
def copyState : List (PieceOp TurnoutSide TurnoutRoute) :=
  [⟨[.ifReg1 (.routeSet .tp)], [.actReg1 .turnoutState]⟩,
    ⟨[.ifReg1 (.routeSet .cp)], [.actReg0 .turnoutState]⟩,
    ⟨[.ifReg0 (.routeSet .tp), .ifReg0 (.routeSet .cp),
      .ifReg1 (.foreign p.magnet.currentState)], [.actReg1 .turnoutState]⟩,
    ⟨[.ifReg0 (.routeSet .tp), .ifReg0 (.routeSet .cp),
      .ifReg0 (.foreign p.magnet.currentState)], [.actReg0 .turnoutState]⟩]

def toTurnoutBase : TurnoutBase := ⟨p.track, TurnoutBase.allDirections⟩

/-- The plugins of the constructor. -/
def plugins : AutomataPlugin TurnoutSide TurnoutRoute :=
  (p.toTurnoutBase.plugins.addAutomataPlugin 110 (some p.copyState)).addAutomataPlugin 120
    (some (copyLocked p.magnet))

end MovableTurnout

/-- `FixedTurnout`. -/
structure FixedTurnout where
  track : Track TurnoutSide TurnoutRoute
  state : TurnoutState

namespace FixedTurnout

variable (p : FixedTurnout)

/-- `FixTurnoutState`, which asserts that the state is closed or thrown. -/
def fixTurnoutState : Option (List (PieceOp TurnoutSide TurnoutRoute)) :=
  match p.state with
  | .closed => some
    [⟨[.ifReg1 (.routeSet .tp)], [.actReg1 .turnoutState]⟩,
      ⟨[.ifReg0 (.routeSet .tp)], [.actReg0 .turnoutState]⟩]
  | .thrown => some
    [⟨[.ifReg1 (.routeSet .cp)], [.actReg0 .turnoutState]⟩,
      ⟨[.ifReg0 (.routeSet .cp)], [.actReg1 .turnoutState]⟩]
  | .dontcare => none

/-- The `directions_` of the constructor. -/
def directions : List TurnoutDirection :=
  [⟨.closed, .points, .cp, .dontcare⟩, ⟨.thrown, .points, .tp, .dontcare⟩] ++
    match p.state with
    | .closed => [⟨.points, .closed, .pc, .closed⟩]
    | .thrown => [⟨.points, .thrown, .pt, .thrown⟩]
    | .dontcare => []

def toTurnoutBase : TurnoutBase := ⟨p.track, p.directions⟩

/-- The plugins of the constructor. -/
def plugins : AutomataPlugin TurnoutSide TurnoutRoute :=
  p.toTurnoutBase.plugins.addAutomataPlugin 9 p.fixTurnoutState

end FixedTurnout

/-! ## Double slip switches -/

/-- `DKW::Point`. -/
inductive DKWPoint where
  | a1
  | a2
  | b1
  | b2
deriving DecidableEq, Repr

/-- The `routes_` of a `DKW`, by their points. -/
inductive DKWRoute where
  | a1b1
  | a1b2
  | a2b2
  | a2b1
  | b1a1
  | b1a2
  | b2a2
  | b2a1
deriving DecidableEq, Repr

namespace DKWRoute

/-- `RouteInfo::from`. -/
def source : DKWRoute → DKWPoint
  | a1b1 | a1b2 => .a1
  | a2b2 | a2b1 => .a2
  | b1a1 | b1a2 => .b1
  | b2a2 | b2a1 => .b2

/-- `RouteInfo::to`. -/
def target : DKWRoute → DKWPoint
  | b1a1 | b2a1 => .a1
  | b2a2 | b1a2 => .a2
  | a1b1 | a2b1 => .b1
  | a2b2 | a1b2 => .b2

/-- `RouteInfo::state`: `DKW_CURVED` is true. -/
def curved : DKWRoute → Bool
  | a1b1 | a2b2 | b1a1 | b2a2 => false
  | a1b2 | a2b1 | b1a2 | b2a1 => true

/-- The order of `routes_`. -/
def all : List DKWRoute := [a1b1, a1b2, a2b2, a2b1, b1a1, b1a2, b2a2, b2a1]

end DKWRoute

/-- `DKW`. -/
abbrev DKW := Track DKWPoint DKWRoute

namespace DKW

variable (p : DKW)

/-- `DKWOccupancy`. -/
def dkwOccupancy : Option (List (PieceOp DKWPoint DKWRoute)) := do
  some (← DKWRoute.all.mapM fun d => simulateOccupancy p (.routeSet d) d.source d.target
    (releaseRouteCallback d.target (.routeSet d))).flatten

/-- `ProxySignals`. -/
def proxySignals : List (PieceOp DKWPoint DKWRoute) :=
  DKWRoute.all.flatMap fun r => copySignals (.side r.target) (p.binding r.source).interface
    (turnoutDirectionCheck r.curved)

/-- `ProxyDetectors`. -/
def proxyDetectors : List (PieceOp DKWPoint DKWRoute) :=
  DKWRoute.all.flatMap fun r => proxyDetector (turnoutDirectionCheck r.curved)
    (.detectorNext r.source) (.detectorFar r.source) (p.binding r.target)

/-- `DKWRoute`. -/
def dkwRoute : List (PieceOp DKWPoint DKWRoute) :=
  (DKWRoute.all.map fun d =>
    ⟨[.ifState stInit], [.actReg0 (.routeSet d), .actReg0 (.routePending d)]⟩) ++
    DKWRoute.all.flatMap fun d => simulateRoute p (turnoutDirectionCheck d.curved) d.source
      d.target (.routePending d) [.routeSet d, .anyRouteSet] []

/-- The plugins of the constructor. -/
def plugins : AutomataPlugin DKWPoint DKWRoute :=
  (((((AutomataPlugin.init.addAutomataPlugin 20 p.dkwOccupancy).addAutomataPlugin 23
    (some p.proxySignals)).addAutomataPlugin 25 (some p.proxyDetectors)).addAutomataPlugin 29
    (some [])).addAutomataPlugin 30 (some p.dkwRoute)).addAutomataPlugin 35
    (some (populateAnyRouteSet DKWRoute.all))

/-- `FixedDKW::FixDKWState`, and the plugins of the constructor. -/
def fixedPlugins (curved : Bool) : AutomataPlugin DKWPoint DKWRoute :=
  plugins p |>.addAutomataPlugin 9
    (some [⟨[], [if curved then .actReg1 .turnoutState else .actReg0 .turnoutState]⟩])

/-- `MovableDKW::CopyState`. -/
def copyState (magnet : MagnetBase) : List (PieceOp DKWPoint DKWRoute) :=
  [⟨[.ifReg0 .anyRouteSet, .ifReg1 (.foreign magnet.currentState)], [.actReg1 .turnoutState]⟩,
    ⟨[.ifReg0 .anyRouteSet, .ifReg0 (.foreign magnet.currentState)], [.actReg0 .turnoutState]⟩]

/-- The plugins of the constructor of `MovableDKW`. -/
def movablePlugins (magnet : MagnetBase) : AutomataPlugin DKWPoint DKWRoute :=
  ((plugins p).addAutomataPlugin 110 (some (copyState magnet))).addAutomataPlugin 120
    (some (copyLocked magnet))

end DKW

end OpenmrnCue.Automata
