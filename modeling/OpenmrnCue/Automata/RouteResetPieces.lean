import OpenmrnCue.Automata.RouteReset

/-! The reset of the routes of each kind of track piece: straight tracks, tracks with detectors,
signals, turnouts and double slip switches. -/

namespace OpenmrnCue.Automata

section Tracks

variable {S R : Type} {t : Track S R} {green : Option (Bit S R)}

/-- What asks the piece for a route: a request of a neighbour, or a request for green. -/
def Track.Asks (t : Track S R) (green : Option (Bit S R)) (var : Bit S R) : Prop :=
  (∃ x, var = .interface (t.binding x).interface .outTrySetRoute) ∨ green = some var

/-- The piece is bound to other pieces, and its routes can be reset. -/
structure Track.Resettable (t : Track S R) : Prop where
  hasResetRoutes : t.hasResetRoutes = true
  neighbours : ∀ x, ∃ n, (t.binding x).interface = .other n

/-- Every pending request has been refused, by a neighbour of its own. -/
def Layout.Refused (t : Track S R) (ds : List (RouteDirection S R)) (s : Layout (Bit S R)) : Prop :=
  (∀ d ∈ ds, s.bits (.routePending d.route) = true →
    s.bits (.interface (t.binding d.after).interface .inRouteSetFailure) = true) ∧
  ds.Pairwise fun d d' => s.bits (.routePending d.route) = true →
    s.bits (.routePending d'.route) = true →
      (t.binding d.after).interface ≠ (t.binding d'.after).interface

theorem Layout.refused_iff {target : S → Nat}
    (htarget : ∀ x, (t.binding x).interface = .other (target x)) (ds : List (RouteDirection S R))
    (s : Layout (Bit S R)) : s.Refused t ds ↔ s.requests.Refused target ds := by
  rw [Layout.Refused]
  simp only [htarget, ne_eq, CtrlTrackInterface.other.injEq]
  exact ⟨fun h => ⟨h.1, h.2⟩, fun h => ⟨h.failure, h.apart⟩⟩

variable {asks : Bit S R → Prop} {target : S → Nat} {ds : List (RouteDirection S R)}

/-- The bit is no request, is not reset, and asks for nothing. -/
def Bit.Uninvolved (var : Bit S R) : Prop := var ≠ .resetRoutes ∧ ¬ var.MayAsk ∧ ¬ var.OfRequests

theorem Bit.Uninvolved.before {var : Bit S R} (h : var.Uninvolved)
    (hasks : ∀ var, asks var → var.MayAsk) : var.Before asks ds :=
  ⟨h.1, fun hvar => h.2.1 (hasks var hvar), fun hvar => absurd hvar h.2.2⟩

theorem before_routeSet (hasks : ∀ var, asks var → var.MayAsk) {d : RouteDirection S R}
    (hd : d ∈ ds) : (Bit.routeSet d.route : Bit S R).Before asks ds :=
  ⟨by simp, fun hvar => hasks _ hvar, fun _ => ⟨d, hd, rfl⟩⟩

theorem initial_of_route (hasks : ∀ var, asks var → var.MayAsk) {d : RouteDirection S R}
    (hd : d ∈ ds) : (Bit.routeSet d.route : Bit S R).Initial asks ds ∧
      (Bit.routePending d.route : Bit S R).Initial asks ds :=
  ⟨⟨by simp, fun hvar => hasks _ hvar, fun _ => ⟨d, hd, .inl rfl⟩⟩,
    ⟨by simp, fun hvar => hasks _ hvar, fun _ => ⟨d, hd, .inr rfl⟩⟩⟩

/-- The occupancy leaves the requests. -/
theorem before_simulateOccupancy [DecidableEq S] [DecidableEq R]
    (hasks : ∀ var, asks var → var.MayAsk) {d : RouteDirection S R} (hd : d ∈ ds)
    {ops : List (PieceOp S R)} (h : simulateOccupancy t (.routeSet d.route) d.before d.after
      (releaseRouteCallback d.after (.routeSet d.route)) = some ops) :
    WriteOnly (Bit.Before asks ds) ops := by
  refine writeOnly_simulateOccupancy ?_ ?_ ?_ ?_ h
  · exact Bit.Uninvolved.before ⟨by simp, id, id⟩ hasks
  · exact Bit.Uninvolved.before ⟨by simp, id, id⟩ hasks
  · exact Bit.Uninvolved.before ⟨by simp, id, id⟩ hasks
  · exact writes_releaseRouteCallback (Bit.Uninvolved.before ⟨by simp, id, id⟩ hasks)
      (before_routeSet hasks hd)

theorem before_copySignals (hasks : ∀ var, asks var → var.MayAsk) (src dst : CtrlTrackInterface S)
    (condition : Conditions S R) :
    WriteOnly (Bit.Before asks ds) (copySignals src dst condition) := by
  refine writeOnly_copySignals _ ?_ ?_ _
  · exact Bit.Uninvolved.before ⟨by simp, by cases dst <;> exact id, by cases dst <;> exact id⟩
      hasks
  · exact Bit.Uninvolved.before ⟨by simp, by cases dst <;> exact id, by cases dst <;> exact id⟩
      hasks

/-- A run of the body in which the routes are reset, and nothing asks for a route, leaves the piece
idle if and only if nothing is set that no direction is for, and all pending requests have been
refused; the initial run clears them. -/
def AutomataPlugin.ResetsRefused [DecidableEq S] [DecidableEq R] (plugins : AutomataPlugin S R)
    (t : Track S R) (green : Option (Bit S R)) (ds : List (RouteDirection S R)) : Prop :=
  ∀ ops s, plugins.runAll = some ops → Layout.Undisturbed (t.Asks green) s →
    ((s.run ops).requests.Idle ↔
      s.requests.Unused ds ∧ (s.state = UInt8.ofNat stInit ∨ s.Refused t ds))

/-- The conditions on what asks the piece. -/
structure Track.Neighbours (t : Track S R) (green : Option (Bit S R)) (target : S → Nat) :
    Prop where
  hasResetRoutes : t.hasResetRoutes = true
  binding : ∀ x, (t.binding x).interface = .other (target x)
  mayAsk : ∀ var, t.Asks green var → var.MayAsk

theorem Track.Neighbours.requested (_h : t.Neighbours green target) (x : S) :
    t.Asks green (.interface (t.binding x).interface .outTrySetRoute) :=
  .inl ⟨x, rfl⟩

theorem Track.Resettable.neighbours' (h : t.Resettable)
    (hgreen : ∀ var, green = some var → var.MayAsk) :
    ∃ target, t.Neighbours green target := by
  choose target htarget using h.neighbours
  refine ⟨target, h.hasResetRoutes, htarget, fun var hvar => ?_⟩
  rcases hvar with ⟨x, rfl⟩ | hvar
  · rw [htarget]
    trivial
  · exact hgreen var hvar

/-- The reset of a piece with a body of this shape. -/
theorem resetsRefused_of_body [DecidableEq S] [DecidableEq R] {plugins : AutomataPlugin S R}
    (ht : t.Resettable) (hgreen : ∀ var, green = some var → var.MayAsk) (hne : ds ≠ [])
    (hroutes : (ds.map (·.route)).Nodup)
    (hbody : ∀ target, t.Neighbours green target →
      ∃ b : RouteBody (t.Asks green) target ds,
        (plugins.flatMap fun plugin => plugin.2.getD []) = b.ops) :
    plugins.ResetsRefused t green ds := by
  intro ops s hops hs
  obtain ⟨target, htarget⟩ := ht.neighbours' hgreen
  obtain ⟨b, hb⟩ := hbody target htarget
  rw [AutomataPlugin.runAll_eq hops, hb, b.idle hne hroutes hs, Layout.refused_iff htarget.binding]

end Tracks

/-! ### Straight tracks -/

/-- The directions of a straight track. -/
def straightDirections : List (RouteDirection Side StraightRoute) :=
  [⟨.a, .b, .ab⟩, ⟨.b, .a, .ba⟩]

theorem ab_mem : (⟨.a, .b, .ab⟩ : RouteDirection Side StraightRoute) ∈ straightDirections :=
  List.mem_cons_self

theorem ba_mem : (⟨.b, .a, .ba⟩ : RouteDirection Side StraightRoute) ∈ straightDirections :=
  List.mem_cons_of_mem _ List.mem_cons_self

namespace StraightTrack

variable {p : StraightTrack} {asks : Bit Side StraightRoute → Prop}

theorem before_simulateAllOccupancy {ds : List (RouteDirection Side StraightRoute)}
    (hasks : ∀ var, asks var → var.MayAsk) (hab : ⟨.a, .b, .ab⟩ ∈ ds) (hba : ⟨.b, .a, .ba⟩ ∈ ds)
    {ops : List (PieceOp Side StraightRoute)} (h : p.simulateAllOccupancy = some ops) :
    WriteOnly (Bit.Before asks ds) ops := by
  refine writeOnly_simulateAllOccupancy ?_ ?_ ?_ (fun x => ?_) (fun r => ?_) h
  · exact Bit.Uninvolved.before ⟨by simp, id, id⟩ hasks
  · exact Bit.Uninvolved.before ⟨by simp, id, id⟩ hasks
  · exact Bit.Uninvolved.before ⟨by simp, id, id⟩ hasks
  · exact Bit.Uninvolved.before ⟨by simp, id, id⟩ hasks
  · cases r with
    | ab => exact before_routeSet hasks hab
    | ba => exact before_routeSet hasks hba

/-- The two calls of `SimulateRoute`. -/
theorem blocks_reset {green : Option (Bit Side StraightRoute)} {target : Side → Nat}
    (h : p.Neighbours green target) (conflictAb conflictBa : List (Bit Side StraightRoute))
    (s : Layout (Bit Side StraightRoute)) (hs : s.Undisturbed (p.Asks green)) :
    (s.run (simulateRoute p.toTrack [] .a .b (.routePending .ab) [.routeSet .ab] conflictAb ++
      simulateRoute p.toTrack [] .b .a (.routePending .ba) [.routeSet .ba] conflictBa)).requests =
        straightDirections.foldl (RouteRequests.reset target) s.requests := by
  have hab := resetBlock_simulateRoute h.hasResetRoutes h.mayAsk h.binding h.requested
    (⟨.a, .b, .ab⟩ : RouteDirection Side StraightRoute) (List.forall_mem_nil _) conflictAb []
  have hba := resetBlock_simulateRoute h.hasResetRoutes h.mayAsk h.binding h.requested
    (⟨.b, .a, .ba⟩ : RouteDirection Side StraightRoute) (List.forall_mem_nil _) conflictBa []
  rw [Layout.run_append, hba.requests _ (hs.run hab.calm), hab.requests s hs]
  rfl

/-- The body of a straight track, with what comes before the routes and their initialization. -/
def routeBody {green : Option (Bit Side StraightRoute)} {target : Side → Nat}
    (h : p.Neighbours green target) {before : List (PieceOp Side StraightRoute)}
    (hbefore : EachAction (Action.Touches (Bit.Before (p.Asks green) straightDirections)) before)
    (first : Actions Side StraightRoute) (hfirst : ∀ a ∈ first, a = .actReg1 (.routeSet .ab))
    (conflictAb conflictBa : List (Bit Side StraightRoute)) :
    RouteBody (p.Asks green) target straightDirections where
  before := before
  initialization := [⟨[.ifState stInit], first ++ [.actReg0 (.routeSet .ab),
    .actReg0 (.routeSet .ba), .actReg0 (.routePending .ab), .actReg0 (.routePending .ba)]⟩]
  blocks := simulateRoute p.toTrack [] .a .b (.routePending .ab) [.routeSet .ab] conflictAb ++
      simulateRoute p.toTrack [] .b .a (.routePending .ba) [.routeSet .ba] conflictBa
  after := []
  before_touches := hbefore
  initialization_touches := by
    obtain ⟨hsetAb, hpendingAb⟩ := initial_of_route h.mayAsk ab_mem
    obtain ⟨hsetBa, hpendingBa⟩ := initial_of_route h.mayAsk ba_mem
    refine .cons (List.forall_mem_append.mpr ⟨fun a ha => ?_, ?_⟩) .nil
    · rw [hfirst a ha]
      exact hsetAb
    · simp [Action.Touches, hsetAb, hpendingAb, hsetBa, hpendingBa]
  initialization_guard := by simp
  initialization_clears s hstate d hd := by
    have hrun : s.run [⟨[.ifState stInit], first ++ [.actReg0 (.routeSet .ab),
        .actReg0 (.routeSet .ba), .actReg0 (.routePending .ab),
        (.actReg0 (.routePending .ba) : Action (Bit Side StraightRoute) Empty)]⟩] = s.exec _ := rfl
    rw [hrun, s.exec_ifState hstate, List.foldl_append]
    cases d.route <;> simp [Layout.perform, Layout.setBit]
  blocks_reset := blocks_reset h conflictAb conflictBa
  after_touches := .nil

/-- The reset of a straight track. -/
theorem resetsRefused_plugins (ht : p.Resettable) {plugins : AutomataPlugin Side StraightRoute}
    (hplugins : plugins = [(20, p.simulateAllOccupancy), (23, some p.copySignalState),
      (30, some p.simulateAllRoutes), (10000, some handleInitState)]) :
    plugins.ResetsRefused p.toTrack none straightDirections := by
  refine resetsRefused_of_body ht (by simp) (by simp [straightDirections])
    (by simp [straightDirections]) fun target h => ?_
  have hbefore : EachAction (Action.Touches (Bit.Before (p.Asks none) straightDirections))
      (p.simulateAllOccupancy.getD [] ++ p.copySignalState) := by
    refine WriteOnly.touches (.append (.getD fun ops hops => ?_) ?_)
    · exact before_simulateAllOccupancy h.mayAsk ab_mem ba_mem hops
    · exact (before_copySignals h.mayAsk _ _ _).append (before_copySignals h.mayAsk _ _ _)
  refine ⟨routeBody h hbefore [.actReg1 (.routeSet .ab)] (by simp) [.routeSet .ba]
    [.routeSet .ab], ?_⟩
  rw [hplugins]
  simp [RouteBody.ops, routeBody, simulateAllRoutes]

end StraightTrack

/-! ### Tracks with detectors -/

section Detectors

/-- A variable of the layout that is not the request for green. -/
theorem before_foreign {S R : Type} {t : Track S R} {green : Option (Bit S R)}
    {ds : List (RouteDirection S R)} {n : Nat} (hgreen : green ≠ some (.foreign n)) :
    (Bit.foreign n : Bit S R).Before (t.Asks green) ds := by
  refine ⟨by simp, fun hvar => ?_, fun hvar => hvar.elim⟩
  rcases hvar with ⟨x, heq⟩ | heq
  · cases heq
  · exact hgreen heq

/-- The reset of a track with a detector. -/
theorem StraightTrackWithDetector.resetsRefused_plugins {p : StraightTrackWithDetector}
    (ht : p.Resettable) : p.plugins.ResetsRefused p.toTrack none straightDirections := by
  refine resetsRefused_of_body ht (by simp) (by simp [straightDirections])
    (by simp [straightDirections]) fun target h => ?_
  have hocc : (Bit.simulatedOccupancy : Bit Side StraightRoute).Before (p.Asks none)
      straightDirections := Bit.Uninvolved.before ⟨by simp, id, id⟩ h.mayAsk
  have hset := before_routeSet h.mayAsk ab_mem
  have hset' := before_routeSet h.mayAsk ba_mem
  have hbefore : EachAction (Action.Touches (Bit.Before (p.Asks none) straightDirections))
      (p.detectorOccupancy ++ p.copySignalState) := by
    refine WriteOnly.touches (.append (.cons (by simp [Action.Writes, hocc])
      (.cons (by simp [Action.Writes, hocc, hset, hset']) .nil)) ?_)
    exact (before_copySignals h.mayAsk _ _ _).append (before_copySignals h.mayAsk _ _ _)
  refine ⟨StraightTrack.routeBody h hbefore [] (by simp) [.routeSet .ba, p.detector]
    [.routeSet .ab, p.detector], ?_⟩
  have hplugins : p.plugins = [(20, some p.detectorOccupancy), (23, some p.copySignalState),
    (30, some p.detectorRoute), (10000, some handleInitState)] := rfl
  rw [hplugins]
  simp [RouteBody.ops, StraightTrack.routeBody, detectorRoute]

/-- The reset of a track with a raw detector. -/
theorem StraightTrackWithRawDetector.resetsRefused_plugins {p : StraightTrackWithRawDetector}
    (ht : p.Resettable) : p.plugins.ResetsRefused p.toTrack none straightDirections := by
  refine resetsRefused_of_body ht (by simp) (by simp [straightDirections])
    (by simp [straightDirections]) fun target h => ?_
  have hocc : (Bit.simulatedOccupancy : Bit Side StraightRoute).Before (p.Asks none)
      straightDirections := Bit.Uninvolved.before ⟨by simp, id, id⟩ h.mayAsk
  have hset := before_routeSet h.mayAsk ab_mem
  have hset' := before_routeSet h.mayAsk ba_mem
  have hforeign : ∀ n, (Bit.foreign n : Bit Side StraightRoute).Before (p.Asks none)
      straightDirections := fun n => before_foreign (by simp)
  have hbefore : EachAction (Action.Touches (Bit.Before (p.Asks none) straightDirections))
      (p.virtualRouteOut ++ (p.rawDetectorOccupancy ++ p.copySignalState)) := by
    refine .append ?_ (.append (.cons (by simp [Action.Touches, hforeign]) (.append ?_ ?_)) ?_)
    · unfold virtualRouteOut
      split
      · exact .cons (by simp [Action.Touches, hforeign]) .nil
      · refine .cons (by simp [Action.Touches, hforeign]) fun op hop => ?_
        obtain ⟨v, -, rfl⟩ := List.mem_map.mp hop
        simp [Action.Touches, hforeign]
    · unfold detectorEdges
      split
      · simp [EachAction, Action.Touches, hforeign, hocc]
      · simp [EachAction, Action.Touches, hforeign]
    · simp [EachAction, settleOccupancy, Action.Touches, hocc, hset, hset']
    · exact WriteOnly.touches ((before_copySignals h.mayAsk _ _ _).append
        (before_copySignals h.mayAsk _ _ _))
  refine ⟨StraightTrack.routeBody h hbefore [] (by simp) [.routeSet .ba, .simulatedOccupancy]
    [.routeSet .ab, .simulatedOccupancy], ?_⟩
  rw [plugins_eq]
  simp [RouteBody.ops, StraightTrack.routeBody, StraightTrackWithDetector.detectorRoute,
    toStraightTrackWithDetector]

end Detectors

/-! ### Signals -/

/-- The directions of a signal, in the order of their blocks. -/
def signalDirections : List (RouteDirection Side StraightRoute) :=
  [⟨.b, .a, .ba⟩, ⟨.a, .b, .ab⟩]

namespace SignalPiece

variable {p : SignalPiece}

/-- The request for green and the signal are variables of the layout, and not the same one. -/
structure Variables (p : SignalPiece) : Prop where
  requestGreen : ∃ n, p.requestGreen = .foreign n
  signal : ∀ var, p.signal = some var → (∃ n, var = .foreign n) ∧ p.requestGreen ≠ var

theorem Variables.before (hp : p.Variables) (ds : List (RouteDirection Side StraightRoute))
    {var : Bit Side StraightRoute} (hvar : p.signal = some var) :
    var.Before (p.Asks (some p.requestGreen)) ds := by
  obtain ⟨⟨n, rfl⟩, hne⟩ := hp.signal var hvar
  exact before_foreign fun heq => hne (Option.some.inj heq)

/-- What `MaybeActReg` of the signal writes. -/
theorem Variables.before_maybeActReg (hp : p.Variables)
    {ds : List (RouteDirection Side StraightRoute)} (value : Bool) :
    ∀ a ∈ maybeActReg p.signal value,
      a.Writes (Bit.Before (p.Asks (some p.requestGreen)) ds) := by
  cases hsignal : p.signal with
  | none => simp [maybeActReg]
  | some var =>
    have hvar := hp.before ds hsignal
    cases value <;> simp [maybeActReg, Action.Writes, hvar]

theorem before_signalOccupancy (hp : p.Variables)
    (hasks : ∀ var, p.Asks (some p.requestGreen) var → var.MayAsk)
    {ops : List (PieceOp Side StraightRoute)} (h : p.signalOccupancy = some ops) :
    WriteOnly (Bit.Before (p.Asks (some p.requestGreen)) signalDirections) ops := by
  have hab : (⟨.a, .b, .ab⟩ : RouteDirection Side StraightRoute) ∈ signalDirections :=
    List.mem_cons_of_mem _ List.mem_cons_self
  have hba : (⟨.b, .a, .ba⟩ : RouteDirection Side StraightRoute) ∈ signalDirections :=
    List.mem_cons_self
  unfold signalOccupancy at h
  split at h
  · obtain ⟨prevDetector, -, h⟩ := Option.bind_eq_some_iff.mp h
    cases h
    have hocc : (Bit.simulatedOccupancy : Bit Side StraightRoute).Before
        (p.Asks (some p.requestGreen)) signalDirections :=
      Bit.Uninvolved.before ⟨by simp, id, id⟩ hasks
    have hset := before_routeSet hasks hab
    have hset' := before_routeSet hasks hba
    exact .cons (by simp [Action.Writes, hocc]) (.cons (List.forall_mem_append.mpr
      ⟨hp.before_maybeActReg false, by simp [Action.Writes, hocc, hset, hset']⟩) .nil)
  · exact StraightTrack.before_simulateAllOccupancy hasks hab hba h

theorem before_setSignalState {asks : Bit Side StraightRoute → Prop}
    (hasks : ∀ var, asks var → var.MayAsk) :
    WriteOnly (Bit.Before asks signalDirections) p.setSignalState := by
  have hsignal : ∀ i : CtrlTrackInterface Side, (Bit.interface i .inNextSignal1 :
      Bit Side StraightRoute).Before asks signalDirections ∧
      (Bit.interface i .inNextSignal2 : Bit Side StraightRoute).Before asks signalDirections := by
    intro i
    exact ⟨Bit.Uninvolved.before ⟨by simp, by cases i <;> exact id, by cases i <;> exact id⟩ hasks,
      Bit.Uninvolved.before ⟨by simp, by cases i <;> exact id, by cases i <;> exact id⟩ hasks⟩
  obtain ⟨h1, h2⟩ := hsignal (p.binding .a).interface
  refine (before_copySignals hasks _ _ _).append ?_
  simp [EachAction, Action.Writes, h1, h2]

/-- The initialization of the routes and of the signal. -/
def initialization (p : SignalPiece) : List (PieceOp Side StraightRoute) :=
  ⟨[.ifState stInit], [.actReg1 (.routeSet .ab), .actReg0 (.routeSet .ab),
    .actReg0 (.routeSet .ba), .actReg0 (.routePending .ab), .actReg0 (.routePending .ba)]⟩ ::
  match p.signal with
  | some signal => [⟨[.ifState stInit], [.actReg1 signal, .actReg0 signal]⟩]
  | none => []

/-- The signal follows the routes. -/
def setSignal (p : SignalPiece) : List (PieceOp Side StraightRoute) :=
  match p.signal with
  | some signal =>
    [⟨[.ifReg0 (.routeSet .ab), .ifReg0 (.routeSet .ba)], [.actReg0 signal]⟩,
      ⟨[.ifReg1 (.routeSet .ab)], [.actReg1 signal]⟩,
      ⟨[.ifReg1 (.routeSet .ba)], [.actReg1 signal]⟩]
  | none => []

theorem signalRoute_eq (p : SignalPiece) : p.signalRoute = p.initialization ++
    (simulateRoute p.toTrack [] .b .a (.routePending .ba) [.routeSet .ba] [.routeSet .ab] ++
      simulateSignalFwdRoute p.toTrack .a .b (.routePending .ab) [.routeSet .ab] [.routeSet .ba]
        p.signal p.requestGreen p.routeNoStop ++ p.setSignal) := by
  rw [signalRoute, initialization, setSignal]
  cases p.signal <;> simp

theorem initialization_touches (hp : p.Variables)
    (hasks : ∀ var, p.Asks (some p.requestGreen) var → var.MayAsk) :
    EachAction (Action.Touches (Bit.Initial (p.Asks (some p.requestGreen)) signalDirections))
      p.initialization := by
  obtain ⟨hsetBa, hpendingBa⟩ := initial_of_route hasks (List.mem_cons_self :
    (⟨.b, .a, .ba⟩ : RouteDirection Side StraightRoute) ∈ signalDirections)
  obtain ⟨hsetAb, hpendingAb⟩ := initial_of_route hasks (List.mem_cons_of_mem _
    List.mem_cons_self : (⟨.a, .b, .ab⟩ : RouteDirection Side StraightRoute) ∈ signalDirections)
  refine .cons (by simpa [Action.Touches] using ⟨hsetAb, hsetBa, hpendingAb, hpendingBa⟩) ?_
  cases hsignal : p.signal with
  | none => exact .nil
  | some var =>
    have hvar := (hp.before signalDirections hsignal).initial
    exact .cons (by simpa [Action.Touches] using hvar) .nil

theorem initialization_guard (p : SignalPiece) :
    ∀ op ∈ p.initialization, .ifState stInit ∈ op.ifs := by
  unfold initialization
  cases p.signal <;> simp

theorem initialization_clears (hp : p.Variables) {s : Layout (Bit Side StraightRoute)}
    (hstate : s.state = UInt8.ofNat stInit) (r : StraightRoute) :
    (s.run p.initialization).bits (.routePending r) = false := by
  have hrun : s.run p.initialization = (s.exec _).run _ := rfl
  rw [hrun, s.exec_ifState hstate]
  cases hsignal : p.signal with
  | none => cases r <;> simp [Layout.run, Layout.perform, Layout.setBit]
  | some var =>
    obtain ⟨⟨n, rfl⟩, -⟩ := hp.signal var hsignal
    have hwrites : EachAction (Action.Touches fun v => v = .foreign n)
        ([⟨[.ifState stInit], [.actReg1 (.foreign n), .actReg0 (.foreign n)]⟩] :
          List (PieceOp Side StraightRoute)) := by
      simp [EachAction, Action.Touches]
    rw [(hwrites.agree _).bits _ (by simp)]
    cases r <;> simp [Layout.perform, Layout.setBit]

/-- The body of a signal. -/
def routeBody {target : Side → Nat} (hp : p.Variables)
    (h : p.Neighbours (some p.requestGreen) target) :
    RouteBody (p.Asks (some p.requestGreen)) target signalDirections where
  before := p.signalOccupancy.getD [] ++ p.setSignalState
  initialization := p.initialization
  blocks := simulateRoute p.toTrack [] .b .a (.routePending .ba) [.routeSet .ba] [.routeSet .ab] ++
    simulateSignalFwdRoute p.toTrack .a .b (.routePending .ab) [.routeSet .ab] [.routeSet .ba]
      p.signal p.requestGreen p.routeNoStop
  after := p.setSignal
  before_touches := WriteOnly.touches (.append
    (.getD fun _ hops => before_signalOccupancy hp h.mayAsk hops) (before_setSignalState h.mayAsk))
  initialization_touches := initialization_touches hp h.mayAsk
  initialization_guard := p.initialization_guard
  initialization_clears _ hstate d _ := initialization_clears hp hstate d.route
  blocks_reset s hs := by
    have hsignal : ∀ var, p.signal = some var →
        var ≠ .resetRoutes ∧ ¬ p.Asks (some p.requestGreen) var := by
      intro var hvar
      have hbefore := hp.before signalDirections hvar
      exact ⟨hbefore.1, hbefore.2.1⟩
    have hba := resetBlock_simulateRoute h.hasResetRoutes h.mayAsk h.binding h.requested
      (⟨.b, .a, .ba⟩ : RouteDirection Side StraightRoute) (List.forall_mem_nil _)
      [.routeSet .ab] []
    have hab := resetBlock_simulateSignalFwdRoute h.hasResetRoutes h.mayAsk h.binding h.requested
      (⟨.a, .b, .ab⟩ : RouteDirection Side StraightRoute) [.routeSet .ba] (.inr rfl) hsignal
      p.routeNoStop
    rw [Layout.run_append, hab.requests _ (hs.run hba.calm), hba.requests s hs]
    rfl
  after_touches := by
    unfold setSignal
    cases hsignal : p.signal with
    | none => exact .nil
    | some var =>
      obtain ⟨⟨n, rfl⟩, -⟩ := hp.signal var hsignal
      simp [EachAction, Action.Touches, Bit.OfRequests]

/-- The reset of a signal. -/
theorem resetsRefused_plugins (ht : p.Resettable) (hp : p.Variables) :
    p.plugins.ResetsRefused p.toTrack (some p.requestGreen) signalDirections := by
  have hgreen : ∀ var, some p.requestGreen = some var → var.MayAsk := by
    intro var heq
    obtain ⟨n, hn⟩ := hp.requestGreen
    cases heq
    rw [hn]
    trivial
  refine resetsRefused_of_body ht hgreen (by simp [signalDirections])
    (by simp [signalDirections]) fun target h => ⟨routeBody hp h, ?_⟩
  rw [plugins_eq]
  simp [RouteBody.ops, routeBody, signalRoute_eq]

end SignalPiece

end OpenmrnCue.Automata
