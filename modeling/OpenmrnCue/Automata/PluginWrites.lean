import OpenmrnCue.Library.Except
import OpenmrnCue.Automata.Layout
import OpenmrnCue.Automata.Signal

/-! What the plugins of track pieces write: each of them renders operations that write the bits of
its own concern only. -/

namespace OpenmrnCue.Automata

section Plugins

variable {S R : Type} {P : Action (Bit S R) Empty → Prop}

/-- What the plugins render, if all of them do. -/
theorem AutomataPlugin.runAll_eq {plugins : AutomataPlugin S R} {ops : List (PieceOp S R)}
    (h : plugins.runAll = some ops) : ops = plugins.flatMap fun plugin => plugin.2.getD [] := by
  obtain ⟨opss, hmap, hops⟩ := Option.bind_eq_some_iff.mp h
  cases hops
  have hall := Option.forall₂_of_mapM hmap
  clear hmap h
  induction hall with
  | nil => rfl
  | cons hplugin _ ih => rw [List.flatten_cons, List.flatMap_cons, hplugin, ih, Option.getD_some]

theorem EachAction.getD {callback : Option (List (PieceOp S R))}
    (h : ∀ ops, callback = some ops → EachAction P ops) : EachAction P (callback.getD []) := by
  cases callback with
  | none => exact .nil
  | some ops => exact h ops rfl

theorem SignalPiece.plugins_eq (p : SignalPiece) : p.plugins = [(20, p.signalOccupancy),
    (23, some p.setSignalState), (30, some p.signalRoute), (10000, some handleInitState)] := by
  simp [plugins, StraightTrack.shortPlugins, StraightTrack.plugins, AutomataPlugin.init,
    AutomataPlugin.addAutomataPlugin, AutomataPlugin.removeAutomataPlugins]

end Plugins

section Writes

variable {S R : Type} {W : Bit S R → Prop}

/-- Operations that clear or set one bit. -/
theorem writeOnly_bit {var : Bit S R} (hvar : W var) {ops : List (PieceOp S R)}
    (h : ∀ op ∈ ops, op.acts = [.actReg0 var] ∨ op.acts = [.actReg1 var]) : WriteOnly W ops := by
  intro op hop a ha
  rcases h op hop with hacts | hacts
  · rw [hacts] at ha
    rw [List.mem_singleton.mp ha]
    exact hvar
  · rw [hacts] at ha
    rw [List.mem_singleton.mp ha]
    exact hvar

theorem writeOnly_defCopy (src : Bit S R) {dst : Bit S R} (hdst : W dst)
    (condition : Conditions S R) : WriteOnly W (defCopy src dst condition) :=
  writeOnly_bit hdst (by simp [defCopy])

theorem writeOnly_copySignals (src : CtrlTrackInterface S) {dst : CtrlTrackInterface S}
    (h1 : W (.interface dst .inNextSignal1)) (h2 : W (.interface dst .inNextSignal2))
    (condition : Conditions S R) : WriteOnly W (copySignals src dst condition) :=
  (writeOnly_defCopy _ h1 _).append (writeOnly_defCopy _ h2 _)

theorem writeOnly_proxyOneDetector (condition : Conditions S R) (next : Option (Bit S R))
    {proxy : Bit S R} (hproxy : W proxy) :
    WriteOnly W (proxyOneDetector condition next proxy) := by
  cases next with
  | none => exact writeOnly_bit hproxy (by simp [proxyOneDetector])
  | some det => exact writeOnly_bit hproxy (by simp [proxyOneDetector])

theorem writeOnly_proxyDetector (condition : Conditions S R) {detectorNext detectorFar : Bit S R}
    (hnext : W detectorNext) (hfar : W detectorFar) (binding : Binding S R) :
    WriteOnly W (proxyDetector condition detectorNext detectorFar binding) :=
  (writeOnly_proxyOneDetector _ _ hnext).append (writeOnly_proxyOneDetector _ _ hfar)

theorem writeOnly_populateAnyRouteSet (hany : W .anyRouteSet) (routes : List R) :
    WriteOnly W (populateAnyRouteSet routes : List (PieceOp S R)) := by
  refine writeOnly_bit hany fun op hop => ?_
  rcases List.mem_cons.mp hop with rfl | hop
  · exact .inl rfl
  · obtain ⟨r, -, rfl⟩ := List.mem_map.mp hop
    exact .inr rfl

/-- The release of a route. -/
theorem writes_releaseRouteCallback {sideOut : S} {routeSet : Bit S R}
    (hreleased : W (.interface (.side sideOut) .outRouteReleased)) (hroute : W routeSet) :
    ∀ a ∈ releaseRouteCallback sideOut routeSet, a.Writes W := by
  simp [releaseRouteCallback, Action.Writes, hreleased, hroute]

/-- The occupancy writes its own bits, and what the release of the route writes. -/
theorem writeOnly_simulateOccupancy [DecidableEq S] [DecidableEq R] {t : Track S R}
    {routeSet : Bit S R} {past next : S} {releaseCb : Actions S R}
    (hocc : W .simulatedOccupancy) (hseen : W .tmpSeenTrainInNext)
    (hshadow : W .tmpShadowTrainInFar) (hrelease : ∀ a ∈ releaseCb, a.Writes W)
    {ops : List (PieceOp S R)}
    (h : simulateOccupancy t routeSet past next releaseCb = some ops) : WriteOnly W ops := by
  obtain ⟨previousOcc, -, h⟩ := Option.bind_eq_some_iff.mp h
  cases h
  refine (((EachAction.append ?_ ?_).append ?_).append ?_).append ?_
  · split
    · exact writeOnly_bit hshadow (by simp)
    · exact EachAction.nil
  · exact EachAction.cons (by simp [Action.Writes, hocc, hseen]) EachAction.nil
  · split
    · exact EachAction.cons (by simp [Action.Writes, hseen, hshadow]) EachAction.nil
    · exact EachAction.nil
  · split
    · refine EachAction.cons (fun a ha => ?_) EachAction.nil
      simp only [List.cons_append, List.nil_append, List.mem_cons] at ha
      rcases ha with rfl | rfl | ha
      · exact hshadow
      · exact hocc
      · exact hrelease a ha
    · exact EachAction.nil
  · split
    · split
      · refine EachAction.cons (by simp [Action.Writes, hseen])
          (EachAction.cons (fun a ha => ?_) EachAction.nil)
        rcases List.mem_cons.mp ha with rfl | ha
        · exact hocc
        · exact hrelease a ha
      · exact EachAction.nil
    · exact EachAction.nil

/-- The occupancy of a straight track, in both directions or copied. -/
theorem StraightTrack.writeOnly_simulateAllOccupancy {p : StraightTrack}
    {W : Bit Side StraightRoute → Prop} (hocc : W .simulatedOccupancy)
    (hseen : W .tmpSeenTrainInNext) (hshadow : W .tmpShadowTrainInFar)
    (hreleased : ∀ x, W (.interface (.side x) .outRouteReleased)) (hroute : ∀ r, W (.routeSet r))
    {ops : List (PieceOp Side StraightRoute)} (h : p.simulateAllOccupancy = some ops) :
    WriteOnly W ops := by
  unfold simulateAllOccupancy at h
  split at h
  · cases h
    refine .cons (by simp [Action.Writes, hocc]) (.cons ?_ (.cons ?_
      (.cons (by simp [Action.Writes, hocc]) .nil)))
    · exact writes_releaseRouteCallback (hreleased _) (hroute _)
    · exact writes_releaseRouteCallback (hreleased _) (hroute _)
  · obtain ⟨ab, hopsAb, h⟩ := Option.bind_eq_some_iff.mp h
    obtain ⟨ba, hopsBa, h⟩ := Option.bind_eq_some_iff.mp h
    cases h
    refine EachAction.append ?_ ?_
    · exact writeOnly_simulateOccupancy hocc hseen hshadow
        (writes_releaseRouteCallback (hreleased _) (hroute _)) hopsAb
    · exact writeOnly_simulateOccupancy hocc hseen hshadow
        (writes_releaseRouteCallback (hreleased _) (hroute _)) hopsBa

/-- `SimulateRoute` writes bits of interfaces apart from signals, the lock, and the route. -/
theorem writeOnly_simulateRoute (t : Track S R) (condition : Conditions S R) (before after : S)
    {currentPending : Bit S R} {currentRoute : List (Bit S R)} (conflictingRoutes : List (Bit S R))
    (hinterface : ∀ i v, v ≠ .inNextSignal1 → v ≠ .inNextSignal2 → W (.interface i v))
    (hlock : W .tmpRouteSettingInProgress)
    (hpending : W currentPending) (hroute : ∀ var ∈ currentRoute, W var) :
    WriteOnly W
      (simulateRoute t condition before after currentPending currentRoute conflictingRoutes) := by
  have hclear : ∀ a ∈ (currentRoute.map .actReg0 : Actions S R), a.Writes W := by
    simpa [Action.Writes] using hroute
  have hset : ∀ a ∈ (currentRoute.map .actReg1 : Actions S R), a.Writes W := by
    simpa [Action.Writes] using hroute
  refine (EachAction.append ?_ ?_).append ?_
  · exact EachAction.cons (by simp [Action.Writes, hinterface, hlock]) EachAction.nil
  · split
    · exact EachAction.cons (List.forall_mem_append.mpr
        ⟨by simp [Action.Writes, hinterface, hlock], hclear⟩) EachAction.nil
    · exact EachAction.nil
  · exact EachAction.cons (by simp [Action.Writes, hinterface]) (EachAction.cons
      (by simp [Action.Writes, hinterface]) (EachAction.cons
      (by simp [Action.Writes, hinterface, hlock, hpending]) (EachAction.cons
      (by simp [Action.Writes, hinterface]) (EachAction.cons
      (by simp [Action.Writes, hinterface, hlock, hpending])
      (EachAction.cons (List.forall_mem_append.mpr
        ⟨by simp [Action.Writes, hinterface, hlock, hpending], hset⟩) EachAction.nil)))))

theorem writes_maybeActReg {signal : Option (Bit S R)} (hsignal : ∀ var, signal = some var → W var)
    (value : Bool) : ∀ a ∈ (maybeActReg signal value : Actions S R), a.Writes W := by
  intro a ha
  cases signal with
  | none => cases ha
  | some var =>
    obtain rfl := List.mem_singleton.mp ha
    cases value with
    | false => exact hsignal var rfl
    | true => exact hsignal var rfl

/-- `SimulateSignalFwdRoute` writes the signal and the request as well. -/
theorem writeOnly_simulateSignalFwdRoute (t : Track S R) (before after : S)
    {currentPending : Bit S R} {currentRoute : List (Bit S R)} (conflictingRoutes : List (Bit S R))
    {goSignal : Option (Bit S R)} {inRequestGreen : Bit S R} (inRouteNoStop : Bit S R)
    (hinterface : ∀ i v, v ≠ .inNextSignal1 → v ≠ .inNextSignal2 → W (.interface i v))
    (hlock : W .tmpRouteSettingInProgress) (hpending : W currentPending)
    (hroute : ∀ var ∈ currentRoute, W var) (hsignal : ∀ var, goSignal = some var → W var)
    (hrequest : W inRequestGreen) :
    WriteOnly W (simulateSignalFwdRoute t before after currentPending currentRoute
      conflictingRoutes goSignal inRequestGreen inRouteNoStop) := by
  have hclear : ∀ a ∈ (currentRoute.map .actReg0 : Actions S R), a.Writes W := by
    simpa [Action.Writes] using hroute
  have hset : ∀ a ∈ (currentRoute.map .actReg1 : Actions S R), a.Writes W := by
    simpa [Action.Writes] using hroute
  have hgo := writes_maybeActReg hsignal
  refine ((EachAction.append ?_ ?_).append ?_).append
    (writeOnly_simulateRoute t _ before after conflictingRoutes hinterface hlock hpending hroute)
  · exact EachAction.cons (by simp [Action.Writes, hinterface, hlock]) EachAction.nil
  · split
    · exact EachAction.cons (List.forall_mem_append.mpr
        ⟨by simp [Action.Writes, hinterface, hlock], hclear⟩) EachAction.nil
    · exact EachAction.nil
  · exact EachAction.cons (by simp [Action.Writes, hinterface]) (EachAction.cons
      (List.forall_mem_append.mpr ⟨hgo false, by simp [Action.Writes, hinterface]⟩)
      (EachAction.cons (by simp [Action.Writes, hinterface]) (EachAction.cons
      (by simp [Action.Writes, hinterface, hlock]) (EachAction.cons
      (List.forall_mem_append.mpr ⟨List.forall_mem_append.mpr
        ⟨by simp [Action.Writes, hinterface, hlock, hrequest], hset⟩, hgo true⟩)
      (EachAction.cons (List.forall_mem_append.mpr
        ⟨by simp [Action.Writes, hinterface, hlock, hrequest], hgo false⟩) EachAction.nil)))))

end Writes

end OpenmrnCue.Automata
