import OpenmrnCue.Automata.RouteResetPieces

/-! The reset of the routes of turnouts and double slip switches, and of all kinds of track pieces
together. -/

namespace OpenmrnCue.Automata

/-! ### Pieces with several directions -/

section Directions

variable {S R ι : Type} [DecidableEq S] [DecidableEq R] {t : Track S R} {target : S → Nat}
  {asks : Bit S R → Prop}

/-- Operations that clear bits only. -/
theorem bits_of_clears {ops : List (PieceOp S R)}
    (h : EachAction (fun a => ∃ var, a = .actReg0 var) ops) {s : Layout (Bit S R)} {var : Bit S R}
    (hvar : s.bits var = false) : (s.run ops).bits var = false := by
  refine s.run_keeps (I := fun u => u.bits var = false) hvar fun op hop u hu => ?_
  refine u.exec_keeps (I := fun u => u.bits var = false) hu fun a ha v hv => ?_
  obtain ⟨other, rfl⟩ := h op hop a ha
  by_cases heq : var = other
  · simp [Layout.perform, Layout.setBit, heq]
  · simp [Layout.perform, Layout.setBit, heq, hv]

/-- The initialization of the routes of directions. -/
def initializeRoutes (direction : ι → RouteDirection S R) (is : List ι) : List (PieceOp S R) :=
  is.map fun i => ⟨[.ifState stInit], [.actReg0 (.routeSet (direction i).route),
    .actReg0 (.routePending (direction i).route)]⟩

theorem initializeRoutes_clears {direction : ι → RouteDirection S R} {is : List ι}
    {s : Layout (Bit S R)} (hstate : s.state = UInt8.ofNat stInit) :
    ∀ d ∈ is.map direction,
      (s.run (initializeRoutes direction is)).bits (.routePending d.route) = false := by
  induction is generalizing s with
  | nil => simp
  | cons i is ih =>
    have hrun : s.run (initializeRoutes direction (i :: is)) =
      (s.exec _).run (initializeRoutes direction is) := rfl
    rw [hrun, s.exec_ifState hstate]
    intro d hd
    rcases List.mem_cons.mp hd with rfl | hd
    · refine bits_of_clears (fun op hop a ha => ?_) (by simp [Layout.perform, Layout.setBit])
      obtain ⟨j, -, rfl⟩ := List.mem_map.mp hop
      simp only [List.mem_cons, List.not_mem_nil, or_false] at ha
      rcases ha with rfl | rfl <;> exact ⟨_, rfl⟩
    · refine ih ?_ d hd
      exact hstate

/-- The body of a piece with these directions. -/
def directionsBody (h : t.Neighbours none target) (direction : ι → RouteDirection S R)
    (condition : ι → Conditions S R) (is : List ι) {before after : List (PieceOp S R)}
    (hbefore : EachAction (Action.Touches (Bit.Before (t.Asks none) (is.map direction))) before)
    (hafter : EachAction (Action.Touches fun var => ¬ var.OfRequests) after) :
    RouteBody (t.Asks none) target (is.map direction) where
  before := before
  initialization := initializeRoutes direction is
  blocks := is.flatMap fun i => simulateRoute t (condition i) (direction i).before
    (direction i).after (.routePending (direction i).route)
    [.routeSet (direction i).route, .anyRouteSet] []
  after := after
  before_touches := hbefore
  initialization_touches op hop := by
    obtain ⟨i, hi, rfl⟩ := List.mem_map.mp hop
    obtain ⟨hset, hpending⟩ := initial_of_route h.mayAsk (List.mem_map_of_mem (f := direction) hi)
    simp [Action.Touches, hset, hpending]
  initialization_guard op hop := by
    obtain ⟨i, -, rfl⟩ := List.mem_map.mp hop
    simp
  initialization_clears _ hstate := initializeRoutes_clears hstate
  blocks_reset _ hs := requests_blocks (fun i _ => resetBlock_simulateRoute h.hasResetRoutes
    h.mayAsk h.binding h.requested (direction i) (by simp) [] (condition i)) hs
  after_touches := hafter

/-- The occupancy of all directions. -/
theorem before_occupancies (hasks : ∀ var, asks var → var.MayAsk)
    {direction : ι → RouteDirection S R} {is : List ι} {opss : List (List (PieceOp S R))}
    (h : is.mapM (fun i => simulateOccupancy t (.routeSet (direction i).route)
      (direction i).before (direction i).after (releaseRouteCallback (direction i).after
        (.routeSet (direction i).route))) = some opss) :
    WriteOnly (Bit.Before asks (is.map direction)) opss.flatten := by
  refine EachAction.flatten fun ops hops => ?_
  obtain ⟨i, hi, hops⟩ := Option.exists_of_mem_mapM h hops
  exact before_simulateOccupancy hasks (List.mem_map_of_mem hi) hops

omit [DecidableEq S] [DecidableEq R] in
theorem before_proxyDetector {ds : List (RouteDirection S R)}
    (hasks : ∀ var, asks var → var.MayAsk) (condition : Conditions S R) (x : S)
    (binding : Binding S R) : WriteOnly (Bit.Before asks ds)
      (proxyDetector condition (.detectorNext x) (.detectorFar x) binding) := by
  refine writeOnly_proxyDetector _ ?_ ?_ _
  · exact Bit.Uninvolved.before ⟨by simp, id, id⟩ hasks
  · exact Bit.Uninvolved.before ⟨by simp, id, id⟩ hasks

end Directions

/-! ### Turnouts -/

/-- A direction of a turnout. -/
def TurnoutDirection.toRouteDirection (d : TurnoutDirection) :
    RouteDirection TurnoutSide TurnoutRoute :=
  ⟨d.source, d.target, d.route⟩

namespace TurnoutBase

variable {p : TurnoutBase}

/-- The directions of a turnout. -/
def routeDirections (p : TurnoutBase) : List (RouteDirection TurnoutSide TurnoutRoute) :=
  p.directions.map TurnoutDirection.toRouteDirection

theorem before_plugins {asks : Bit TurnoutSide TurnoutRoute → Prop}
    (hasks : ∀ var, asks var → var.MayAsk) :
    EachAction (Action.Touches (Bit.Before asks p.routeDirections))
      (p.turnoutOccupancy.getD [] ++ (p.proxySignals ++ p.proxyDetectors)) := by
  refine WriteOnly.touches (.append (.getD fun ops hops => ?_) (.append ?_ ?_))
  · obtain ⟨opss, hmap, hops⟩ := Option.bind_eq_some_iff.mp hops
    cases hops
    exact before_occupancies hasks hmap
  · exact (((before_copySignals hasks _ _ _).append (before_copySignals hasks _ _ _)).append
      (before_copySignals hasks _ _ _)).append (before_copySignals hasks _ _ _)
  · exact (before_proxyDetector hasks _ _ _).append (before_proxyDetector hasks _ _ _)

theorem touches_populateAnyRouteSet (routes : List TurnoutRoute) :
    EachAction (Action.Touches fun var : Bit TurnoutSide TurnoutRoute => ¬ var.OfRequests)
      (populateAnyRouteSet routes) :=
  WriteOnly.touches (writeOnly_populateAnyRouteSet id routes)

/-- The reset of a turnout, with what comes before its other plugins and after them. -/
theorem resetsRefused_of_plugins (ht : p.Resettable) (hne : p.directions ≠ [])
    (hroutes : (p.directions.map (·.route)).Nodup)
    (first last : AutomataPlugin TurnoutSide TurnoutRoute)
    (hfirst : ∀ asks : Bit TurnoutSide TurnoutRoute → Prop, (∀ var, asks var → var.MayAsk) →
      EachAction (Action.Touches (Bit.Before asks p.routeDirections))
        (first.flatMap fun plugin => plugin.2.getD []))
    (hlast : EachAction (Action.Touches fun var => ¬ var.OfRequests)
      (last.flatMap fun plugin => plugin.2.getD []))
    {plugins : AutomataPlugin TurnoutSide TurnoutRoute}
    (hplugins : plugins = first ++ [(20, p.turnoutOccupancy), (23, some p.proxySignals),
      (24, some []), (25, some p.proxyDetectors), (29, some []), (30, some p.turnoutRoute),
      (35, some (populateAnyRouteSet (p.directions.map (·.route))))] ++ last ++
        [(10000, some handleInitState)]) :
    plugins.ResetsRefused p.toTrack none p.routeDirections := by
  refine resetsRefused_of_body ht (by simp) (by simpa [routeDirections] using hne) ?_
    fun target h => ?_
  · rw [routeDirections, List.map_map]
    exact hroutes
  · refine ⟨directionsBody h TurnoutDirection.toRouteDirection
      (fun d => stateCallback d.stateCondition) p.directions
      ((hfirst _ h.mayAsk).append (before_plugins h.mayAsk))
      ((touches_populateAnyRouteSet (p.directions.map (·.route))).append hlast), ?_⟩
    rw [hplugins]
    simp [RouteBody.ops, directionsBody, turnoutRoute, initializeRoutes,
      TurnoutDirection.toRouteDirection]

end TurnoutBase

/-- Operations that write `turnout_state_` only. -/
theorem touches_turnoutState {S R : Type} {W : Bit S R → Prop} (hstate : W .turnoutState)
    {ops : List (PieceOp S R)}
    (h : ∀ op ∈ ops, op.acts = [.actReg0 .turnoutState] ∨ op.acts = [.actReg1 .turnoutState]) :
    EachAction (Action.Touches W) ops :=
  WriteOnly.touches (writeOnly_bit hstate h)

theorem touches_copyLocked {S R : Type} (magnet : MagnetBase) :
    EachAction (Action.Touches fun var : Bit S R => ¬ var.OfRequests) (copyLocked magnet) :=
  WriteOnly.touches (writeOnly_defCopy _ id _)

theorem TurnoutBase.plugins_eq (p : TurnoutBase) : p.plugins =
    [(20, p.turnoutOccupancy), (23, some p.proxySignals), (24, some []),
      (25, some p.proxyDetectors), (29, some []), (30, some p.turnoutRoute),
      (35, some (populateAnyRouteSet (p.directions.map (·.route)))),
      (10000, some handleInitState)] := by
  simp [plugins, AutomataPlugin.init, AutomataPlugin.addAutomataPlugin]

/-- The reset of a movable turnout. -/
theorem MovableTurnout.resetsRefused_plugins {p : MovableTurnout} (ht : p.track.Resettable) :
    p.plugins.ResetsRefused p.track none p.toTurnoutBase.routeDirections := by
  refine TurnoutBase.resetsRefused_of_plugins (p := p.toTurnoutBase) ht
    (by simp [toTurnoutBase, TurnoutBase.allDirections])
    (by simp [toTurnoutBase, TurnoutBase.allDirections]) []
    [(110, some p.copyState), (120, some (copyLocked p.magnet))] (fun _ _ => .nil) ?_ ?_
  · simp only [List.flatMap_cons, List.flatMap_nil, Option.getD_some, List.append_nil]
    exact (touches_turnoutState id (by simp [copyState])).append (touches_copyLocked _)
  · rw [plugins, TurnoutBase.plugins_eq]
    simp [AutomataPlugin.addAutomataPlugin]

/-- The reset of a fixed turnout. -/
theorem FixedTurnout.resetsRefused_plugins {p : FixedTurnout} (ht : p.track.Resettable) :
    p.plugins.ResetsRefused p.track none p.toTurnoutBase.routeDirections := by
  refine TurnoutBase.resetsRefused_of_plugins (p := p.toTurnoutBase) ht
    (by simp [toTurnoutBase, directions]) ?_ [(9, p.fixTurnoutState)] []
    (fun asks hasks => ?_) .nil ?_
  · unfold toTurnoutBase directions
    cases p.state <;> simp
  · rw [List.flatMap_singleton]
    refine .getD fun ops hops =>
      touches_turnoutState (Bit.Uninvolved.before ⟨by simp, id, id⟩ hasks) ?_
    unfold fixTurnoutState at hops
    split at hops <;> cases hops <;> simp
  · rw [plugins, TurnoutBase.plugins_eq]
    simp [AutomataPlugin.addAutomataPlugin]

/-! ### Double slip switches -/

namespace DKW

variable {p : DKW}

/-- The direction of a route. -/
def routeDirection (r : DKWRoute) : RouteDirection DKWPoint DKWRoute := ⟨r.source, r.target, r⟩

/-- The directions of a double slip switch. -/
def routeDirections : List (RouteDirection DKWPoint DKWRoute) := DKWRoute.all.map routeDirection

theorem before_plugins {asks : Bit DKWPoint DKWRoute → Prop}
    (hasks : ∀ var, asks var → var.MayAsk) :
    EachAction (Action.Touches (Bit.Before asks routeDirections))
      ((dkwOccupancy p).getD [] ++ (proxySignals p ++ proxyDetectors p)) := by
  refine WriteOnly.touches (.append (.getD fun ops hops => ?_) (.append ?_ ?_))
  · obtain ⟨opss, hmap, hops⟩ := Option.bind_eq_some_iff.mp hops
    cases hops
    exact before_occupancies hasks hmap
  · intro op hop
    obtain ⟨r, -, hop⟩ := List.mem_flatMap.mp hop
    exact before_copySignals hasks _ _ _ op hop
  · intro op hop
    obtain ⟨r, -, hop⟩ := List.mem_flatMap.mp hop
    exact before_proxyDetector hasks _ _ _ op hop

/-- The reset of a double slip switch, with what comes before its other plugins and after them. -/
theorem resetsRefused_of_plugins (ht : Track.Resettable p)
    (first last : AutomataPlugin DKWPoint DKWRoute)
    (hfirst : ∀ asks : Bit DKWPoint DKWRoute → Prop, (∀ var, asks var → var.MayAsk) →
      EachAction (Action.Touches (Bit.Before asks routeDirections))
        (first.flatMap fun plugin => plugin.2.getD []))
    (hlast : EachAction (Action.Touches fun var => ¬ var.OfRequests)
      (last.flatMap fun plugin => plugin.2.getD []))
    {plugins : AutomataPlugin DKWPoint DKWRoute}
    (hplugins : plugins = first ++ [(20, dkwOccupancy p), (23, some (proxySignals p)),
      (25, some (proxyDetectors p)), (29, some []), (30, some (dkwRoute p)),
      (35, some (populateAnyRouteSet DKWRoute.all))] ++ last ++
        [(10000, some handleInitState)]) :
    plugins.ResetsRefused p none routeDirections := by
  refine resetsRefused_of_body ht (by simp) (by decide) (by decide) fun target h => ?_
  refine ⟨directionsBody h routeDirection (fun r => turnoutDirectionCheck r.curved) DKWRoute.all
    ((hfirst _ h.mayAsk).append (before_plugins (p := p) h.mayAsk))
    (EachAction.append (WriteOnly.touches (writeOnly_populateAnyRouteSet id DKWRoute.all)) hlast),
    ?_⟩
  rw [hplugins]
  simp [RouteBody.ops, directionsBody, dkwRoute, initializeRoutes, routeDirection]

theorem plugins_eq (p : DKW) : plugins p = [(20, dkwOccupancy p), (23, some (proxySignals p)),
    (25, some (proxyDetectors p)), (29, some []), (30, some (dkwRoute p)),
    (35, some (populateAnyRouteSet DKWRoute.all)), (10000, some handleInitState)] := by
  simp [plugins, AutomataPlugin.init, AutomataPlugin.addAutomataPlugin]

theorem resetsRefused_plugins (ht : Track.Resettable p) :
    (plugins p).ResetsRefused p none routeDirections :=
  resetsRefused_of_plugins ht [] [] (fun _ _ => .nil) .nil (plugins_eq p)

theorem resetsRefused_fixedPlugins (ht : Track.Resettable p) (curved : Bool) :
    (fixedPlugins p curved).ResetsRefused p none routeDirections := by
  refine resetsRefused_of_plugins ht [(9, some [⟨[], [if curved then .actReg1 .turnoutState else
    .actReg0 .turnoutState]⟩])] [] (fun asks hasks => ?_) .nil ?_
  · exact touches_turnoutState (Bit.Uninvolved.before ⟨by simp, id, id⟩ hasks)
      (by cases curved <;> simp)
  · rw [fixedPlugins, plugins_eq]
    simp [AutomataPlugin.addAutomataPlugin]

theorem resetsRefused_movablePlugins (ht : Track.Resettable p) (magnet : MagnetBase) :
    (movablePlugins p magnet).ResetsRefused p none routeDirections := by
  refine resetsRefused_of_plugins ht []
    [(110, some (copyState magnet)), (120, some (copyLocked magnet))] (fun _ _ => .nil) ?_ ?_
  · simp only [List.flatMap_cons, List.flatMap_nil, Option.getD_some, List.append_nil]
    exact (touches_turnoutState id (by simp [copyState])).append (touches_copyLocked _)
  · rw [movablePlugins, plugins_eq]
    simp [AutomataPlugin.addAutomataPlugin]

end DKW

/-! ### All pieces -/

/-- A reset of the routes leaves every kind of track piece idle if and only if each request that was
pending has been refused.  A request without an answer stays pending, and one that has been granted
sets its route.  A DKW is an ordinary one, one that is fixed, or one with a magnet. -/
theorem reset_leaves_idle (curved : Bool) (magnet : MagnetBase) :
    (∀ p : StraightTrack, p.Resettable →
      p.shortPlugins.ResetsRefused p.toTrack none straightDirections ∧
      p.longPlugins.ResetsRefused p.toTrack none straightDirections) ∧
    (∀ p : StraightTrackWithDetector, p.Resettable →
      p.plugins.ResetsRefused p.toTrack none straightDirections) ∧
    (∀ p : StraightTrackWithRawDetector, p.Resettable →
      p.plugins.ResetsRefused p.toTrack none straightDirections) ∧
    (∀ p : SignalPiece, p.Resettable → p.Variables →
      p.plugins.ResetsRefused p.toTrack (some p.requestGreen) signalDirections) ∧
    (∀ p : MovableTurnout, p.track.Resettable →
      p.plugins.ResetsRefused p.track none p.toTurnoutBase.routeDirections) ∧
    (∀ p : FixedTurnout, p.track.Resettable →
      p.plugins.ResetsRefused p.track none p.toTurnoutBase.routeDirections) ∧
    ∀ p : DKW, Track.Resettable p →
      (DKW.plugins p).ResetsRefused p none DKW.routeDirections ∧
      (DKW.fixedPlugins p curved).ResetsRefused p none DKW.routeDirections ∧
      (DKW.movablePlugins p magnet).ResetsRefused p none DKW.routeDirections := by
  refine ⟨fun p h => ⟨?_, ?_⟩, fun p h => ?_, fun p h => ?_, fun p h hp => ?_, fun p h => ?_,
    fun p h => ?_, fun p h => ⟨?_, ?_, ?_⟩⟩
  · exact StraightTrack.resetsRefused_plugins h rfl
  · exact StraightTrack.resetsRefused_plugins h rfl
  · exact StraightTrackWithDetector.resetsRefused_plugins h
  · exact StraightTrackWithRawDetector.resetsRefused_plugins h
  · exact SignalPiece.resetsRefused_plugins h hp
  · exact MovableTurnout.resetsRefused_plugins h
  · exact FixedTurnout.resetsRefused_plugins h
  · exact DKW.resetsRefused_plugins h
  · exact DKW.resetsRefused_fixedPlugins h curved
  · exact DKW.resetsRefused_movablePlugins h magnet

/-- A short track between two other pieces, whose routes can be reset. -/
def resettableTrack : StraightTrack where
  binding
    | .a => ⟨.other 0, some (.foreign 0), some (.foreign 1)⟩
    | .b => ⟨.other 1, some (.foreign 2), none⟩
  hasResetRoutes := true
  externalOccupancy := none

theorem resettableTrack_resettable : resettableTrack.Resettable where
  hasResetRoutes := rfl
  neighbours x := by
    cases x with
    | a => exact ⟨0, rfl⟩
    | b => exact ⟨1, rfl⟩

/-- The routes are reset while the request for the route from a to b is pending. -/
def resetWhilePending (refused : Bool) : Layout (Bit Side StraightRoute) where
  state := 1
  timer := 0
  aspect := 0
  bits
    | .resetRoutes => true
    | .routePending .ab => true
    | .tmpRouteSettingInProgress => true
    | .interface (.side .b) .outTrySetRoute => true
    | .interface (.other 1) .inRouteSetFailure => refused
    | _ => false
  values _ _ := 0

theorem resetWhilePending_undisturbed (refused : Bool) :
    (resetWhilePending refused).Undisturbed (resettableTrack.Asks none) where
  reset := rfl
  unasked var h := by
    rcases h with ⟨x, rfl⟩ | h
    · cases x <;> rfl
    · cases h

/-- A pending request that has been refused is gone after the reset. -/
theorem resettableTrack_idle : ∃ ops, resettableTrack.shortPlugins.runAll = some ops ∧
    ((resetWhilePending true).run ops).requests.Idle := by
  obtain ⟨ops, hops⟩ : ∃ ops, resettableTrack.shortPlugins.runAll = some ops := ⟨_, rfl⟩
  have hstraight := (reset_leaves_idle false ⟨2, 3⟩).1 resettableTrack resettableTrack_resettable
  refine ⟨ops, hops, (hstraight.1 ops _ hops (resetWhilePending_undisturbed true)).mpr
    ⟨⟨?_, ?_, ?_⟩, .inr ⟨?_, ?_⟩⟩⟩
  · exact fun r _ => rfl
  · intro r hr
    cases r <;> simp [straightDirections] at hr
  · intro x hx
    cases x <;> simp [straightDirections] at hx
  · decide
  · simp [straightDirections, resetWhilePending]

/-- A request that has no answer survives the reset, and the answer sets the route afterwards. -/
theorem reset_keeps_pending : ∃ ops, resettableTrack.shortPlugins.runAll = some ops ∧
    (resetWhilePending false).Undisturbed (resettableTrack.Asks none) ∧
    ¬ ((resetWhilePending false).run ops).requests.Idle ∧
    ((((resetWhilePending false).run ops).setBit .resetRoutes false).setBit
      (.interface (.other 1) .inRouteSetSuccess) true |>.run ops).bits (.routeSet .ab) = true := by
  obtain ⟨ops, hops⟩ : ∃ ops, resettableTrack.shortPlugins.runAll = some ops := ⟨_, rfl⟩
  refine ⟨ops, hops, resetWhilePending_undisturbed false, fun hidle => ?_, ?_⟩
  · have hpending : ((resetWhilePending false).run ops).bits (.routePending .ab) = true := by
      cases hops
      set_option maxRecDepth 2000 in
      decide
    cases hpending.symm.trans (hidle.pending .ab)
  · cases hops
    set_option maxRecDepth 2000 in
    decide

end OpenmrnCue.Automata
