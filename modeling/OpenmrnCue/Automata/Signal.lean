import OpenmrnCue.Automata.Track

/-! The automaton of a signal piece of `control-logic.cc`.  Trains coming from side a stop there
until the signal is requested to be green: a request from side a is granted at the signal, and the
signal requests the track behind it on its own. -/

namespace OpenmrnCue.Automata

/-- The action of `MaybeActReg`. -/
def maybeActReg {S R : Type} (signal : Option (Bit S R)) (value : Bool) : Actions S R :=
  match signal with
  | some var => [if value then .actReg1 var else .actReg0 var]
  | none => []

/-- `SimulateSignalFwdRoute`. -/
def simulateSignalFwdRoute {S R : Type} (t : Track S R) (before after : S)
    (currentPending : Bit S R) (currentRoute conflictingRoutes : List (Bit S R))
    (goSignal : Option (Bit S R)) (inRequestGreen inRouteNoStop : Bit S R) :
    List (PieceOp S R) :=
  let inTrySetRoute : Bit S R := .interface (t.binding before).interface .outTrySetRoute
  let inRouteSetSuccess : Bit S R := .interface (.side before) .inRouteSetSuccess
  let inRouteSetFailure : Bit S R := .interface (.side before) .inRouteSetFailure
  let outRouteSetSuccess : Bit S R := .interface (t.binding after).interface .inRouteSetSuccess
  let outRouteSetFailure : Bit S R := .interface (t.binding after).interface .inRouteSetFailure
  let outTrySetRoute : Bit S R := .interface (.side after) .outTrySetRoute
  let initialization : List (PieceOp S R) :=
    [⟨[.ifState stInit],
      [.actReg0 outTrySetRoute, .actReg0 .tmpRouteSettingInProgress, .actReg0 inRouteSetSuccess,
        .actReg0 inRouteSetFailure]⟩]
  let reset : List (PieceOp S R) := if t.hasResetRoutes then
      [⟨[.ifReg1 .resetRoutes],
        ([.actReg0 outTrySetRoute, .actReg0 .tmpRouteSettingInProgress, .actReg0 inRouteSetSuccess,
          .actReg0 inRouteSetFailure] : Actions S R) ++ currentRoute.map Action.actReg0⟩]
    else []
  let reject : Actions S R :=
    [.actReg1 inRouteSetFailure, .actReg0 inRouteSetSuccess, .actReg0 inTrySetRoute]
  initialization ++ reset ++
    ([⟨[.ifReg1 inTrySetRoute, .ifReg1 .tmpRouteSettingInProgress], reject⟩,
      -- The incoming route ends at the signal, which goes to red.
      ⟨([.ifReg1 inTrySetRoute, .ifReg0 inRouteNoStop, .ifReg0 .tmpRouteSettingInProgress] :
            Conditions S R) ++
          currentRoute.map Condition.ifReg0 ++ conflictingRoutes.map Condition.ifReg0,
        maybeActReg goSignal false ++ ([.actReg0 inTrySetRoute, .actReg0 inRouteSetFailure,
          .actReg1 inRouteSetSuccess] : Actions S R)⟩,
      ⟨[.ifReg1 inTrySetRoute, .ifReg0 inRouteNoStop], reject⟩,
      -- The outgoing route, and the answers to it.
      ⟨[.ifReg1 inRequestGreen, .ifReg0 outTrySetRoute, .ifReg0 outRouteSetSuccess,
          .ifReg0 outRouteSetFailure, .ifReg0 .tmpRouteSettingInProgress],
        [.actReg1 outTrySetRoute, .actReg1 .tmpRouteSettingInProgress]⟩,
      ⟨[.ifReg1 inRequestGreen, .ifReg1 outRouteSetSuccess],
        ([.actReg0 outRouteSetSuccess, .actReg0 .tmpRouteSettingInProgress,
            .actReg0 inRequestGreen] : Actions S R) ++
          currentRoute.map Action.actReg1 ++ maybeActReg goSignal true⟩,
      ⟨[.ifReg1 inRequestGreen, .ifReg1 outRouteSetFailure],
        ([.actReg0 outRouteSetFailure, .actReg0 .tmpRouteSettingInProgress,
          .actReg0 inRequestGreen] : Actions S R) ++ maybeActReg goSignal false⟩] :
      List (PieceOp S R)) ++
    simulateRoute t [.ifReg1 inRouteNoStop] before after currentPending currentRoute
      conflictingRoutes

/-- `SignalPiece`.  `signal_` may be null. -/
structure SignalPiece extends StraightTrack where
  requestGreen : Bit Side StraightRoute
  signal : Option (Bit Side StraightRoute)
  routeNoStop : Bit Side StraightRoute

namespace SignalPiece

variable (p : SignalPiece)

/-- `SignalOccupancy`.  The detector next to side a is dereferenced. -/
def signalOccupancy : Option (List (PieceOp Side StraightRoute)) :=
  if (p.binding .a).nextDetector ≠ (p.binding .a).farDetector then do
    let prevDetector ← (p.binding .a).nextDetector
    some [⟨[.ifReg1 prevDetector], [.actReg1 .simulatedOccupancy]⟩,
      ⟨[.ifReg0 prevDetector, .ifReg1 .simulatedOccupancy],
        maybeActReg p.signal false ++ ([.actReg0 (.routeSet .ab), .actReg0 (.routeSet .ba),
          .actReg0 .simulatedOccupancy] : Actions Side StraightRoute)⟩]
  else p.simulateAllOccupancy

/-- `SetSignalState`. -/
def setSignalState : List (PieceOp Side StraightRoute) :=
  let inst1 := .interface (.side .b) .inNextSignal1
  let inst2 := .interface (.side .b) .inNextSignal2
  let green := .routeSet .ab
  let outst1 := .interface (p.binding .a).interface .inNextSignal1
  let outst2 := .interface (p.binding .a).interface .inNextSignal2
  copySignals (.side .a) (p.binding .b).interface [] ++
    [⟨[.ifReg0 green], [.actReg0 outst1, .actReg0 outst2]⟩,
      ⟨[.ifReg1 green, .ifReg0 inst2, .ifReg0 inst1], [.actReg0 outst2, .actReg1 outst1]⟩,
      ⟨[.ifReg1 green, .ifReg0 inst2, .ifReg1 inst1], [.actReg1 outst2, .actReg0 outst1]⟩,
      ⟨[.ifReg1 green, .ifReg1 inst2], [.actReg1 outst2, .actReg1 outst1]⟩]

/-- `SignalRoute`. -/
def signalRoute : List (PieceOp Side StraightRoute) :=
  let initialization : List (PieceOp Side StraightRoute) :=
    [⟨[.ifState stInit],
      [.actReg1 (.routeSet .ab), .actReg0 (.routeSet .ab), .actReg0 (.routeSet .ba),
        .actReg0 (.routePending .ab), .actReg0 (.routePending .ba)]⟩]
  let initSignal : List (PieceOp Side StraightRoute) := match p.signal with
    | some signal => [⟨[.ifState stInit], [.actReg1 signal, .actReg0 signal]⟩]
    | none => []
  let setSignal : List (PieceOp Side StraightRoute) := match p.signal with
    | some signal =>
      [⟨[.ifReg0 (.routeSet .ab), .ifReg0 (.routeSet .ba)], [.actReg0 signal]⟩,
        ⟨[.ifReg1 (.routeSet .ab)], [.actReg1 signal]⟩,
        ⟨[.ifReg1 (.routeSet .ba)], [.actReg1 signal]⟩]
    | none => []
  initialization ++ initSignal ++
    simulateRoute p.toTrack [] .b .a (.routePending .ba) [.routeSet .ba] [.routeSet .ab] ++
    simulateSignalFwdRoute p.toTrack .a .b (.routePending .ab) [.routeSet .ab] [.routeSet .ba]
      p.signal p.requestGreen p.routeNoStop ++
    setSignal

/-- The plugins of the constructor. -/
def plugins : AutomataPlugin Side StraightRoute :=
  (((((p.shortPlugins.removeAutomataPlugins 20).addAutomataPlugin 20
    p.signalOccupancy).removeAutomataPlugins 23).addAutomataPlugin 23
    (some p.setSignalState)).removeAutomataPlugins 30).addAutomataPlugin 30 (some p.signalRoute)

end SignalPiece

end OpenmrnCue.Automata
