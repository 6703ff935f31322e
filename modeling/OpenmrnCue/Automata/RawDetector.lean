import OpenmrnCue.Automata.Debounce
import OpenmrnCue.Automata.PluginWrites

/-! The track piece with a raw detector of `control-logic.cc`.  Its occupancy is the debounced value
of the detector; the rest of the piece is that of a straight track whose detector is this
occupancy. -/

namespace OpenmrnCue.Automata

/-- `StraightTrackWithRawDetector`, with the numbers of the detector, of the output routes and of
the variables that it allocates among those of the layout.  What it allocates is its own. -/
structure StraightTrackWithRawDetector extends StraightTrack where
  rawDetector : Nat
  debounceTempVar : Nat
  outputRouteTempVar : Nat
  outputRoutes : List Nat
  minOccupiedTime : Nat
  raw_ne_debounce : rawDetector ≠ debounceTempVar
  raw_ne_outputRoute : rawDetector ≠ outputRouteTempVar
  debounce_ne_outputRoute : debounceTempVar ≠ outputRouteTempVar
  output_ne_outputRoute : ∀ n ∈ outputRoutes, n ≠ outputRouteTempVar

namespace StraightTrackWithRawDetector

variable (p : StraightTrackWithRawDetector)

/-- The track with a detector: `detector_` is `simulated_occupancy_`. -/
def toStraightTrackWithDetector : StraightTrackWithDetector where
  toStraightTrack := p.toStraightTrack
  detector := .simulatedOccupancy

/-- `VirtualRouteOut`. -/
def virtualRouteOut : List (PieceOp Side StraightRoute) :=
  let ortmp := .foreign p.outputRouteTempVar
  if p.outputRoutes = [] then [⟨[], [.actReg1 ortmp]⟩]
  else
    ⟨p.outputRoutes.map fun v => .ifReg0 (.foreign v), [.actReg0 ortmp]⟩ ::
      p.outputRoutes.map fun v => ⟨[.ifReg1 (.foreign v)], [.actReg1 ortmp]⟩

/-- What `RawDetectorOccupancy` does with the edges of the detector. -/
def detectorEdges : List (PieceOp Side StraightRoute) :=
  let occ := .simulatedOccupancy
  let raw := .foreign p.rawDetector
  let last := .foreign p.debounceTempVar
  let routeAb := .routeSet .ab
  let route2 := .routeSet .ba
  if p.minOccupiedTime ≠ 0 then
    -- If there is a route set, then the occupancy is not delayed.
    [⟨[.ifReg0 raw, .ifReg1 last, .ifReg1 routeAb],
        [.actTimer p.minOccupiedTime, .actReg0 last, .actReg1 occ]⟩,
      ⟨[.ifReg0 raw, .ifReg1 last, .ifReg1 route2],
        [.actTimer p.minOccupiedTime, .actReg0 last, .actReg1 occ]⟩,
      ⟨[.ifReg0 raw, .ifReg1 last], [.actTimer kTimeTakenToGoBusy, .actReg0 last]⟩,
      ⟨[.ifReg1 raw, .ifReg0 last, .ifTimerDone], [.actTimer kTimeTakenToGoFree, .actReg1 last]⟩,
      ⟨[.ifTimerDone, .ifReg0 last, .ifReg0 occ], [.actReg1 occ, .actTimer p.minOccupiedTime]⟩]
  else
    [⟨[.ifReg0 raw, .ifReg1 last, .ifReg1 routeAb], [.actTimer 0, .actReg0 last]⟩,
      ⟨[.ifReg0 raw, .ifReg1 last, .ifReg1 route2], [.actTimer 0, .actReg0 last]⟩,
      ⟨[.ifReg0 raw, .ifReg1 last], [.actTimer kTimeTakenToGoBusy, .actReg0 last]⟩,
      ⟨[.ifReg1 raw, .ifReg0 last, .ifReg0 routeAb], [.actTimer kTimeTakenToGoFree, .actReg1 last]⟩,
      -- An incoming route is held until there is an outgoing one.
      ⟨[.ifReg1 raw, .ifReg0 last, .ifReg1 routeAb, .ifReg1 (.foreign p.outputRouteTempVar)],
        [.actTimer kTimeTakenToGoFree, .actReg1 last]⟩]

/-- What `RawDetectorOccupancy` does if no flip happened for the timer length. -/
def settleOccupancy : List (PieceOp Side StraightRoute) :=
  let occ := .simulatedOccupancy
  let last := .foreign p.debounceTempVar
  [⟨[.ifTimerDone, .ifReg0 last], [.actReg1 occ]⟩,
    ⟨[.ifTimerDone, .ifReg1 last, .ifReg1 occ],
      [.actReg0 (.routeSet .ab), .actReg0 (.routeSet .ba), .actReg0 occ]⟩]

/-- `RawDetectorOccupancy`. -/
def rawDetectorOccupancy : List (PieceOp Side StraightRoute) :=
  let raw := .foreign p.rawDetector
  let last := .foreign p.debounceTempVar
  -- An event on the detector asks for its value, which is busy until an answer arrives.
  ⟨[.ifState stInit], [.actReg1 raw, .actReg0 raw, .actReg1 last]⟩ ::
    (p.detectorEdges ++ p.settleOccupancy)

/-- The plugins of the constructor.  `ClearAutomataVariables` renders nothing. -/
def plugins : AutomataPlugin Side StraightRoute :=
  (((p.toStraightTrackWithDetector.plugins.removeAutomataPlugins 20).addAutomataPlugin 18
    (some p.virtualRouteOut)).addAutomataPlugin 19 (some [])).addAutomataPlugin 20
    (some p.rawDetectorOccupancy)

/-- What the plugins render. -/
def body : List (PieceOp Side StraightRoute) := p.plugins.runAll.getD []

/-- What comes after the occupancy. -/
def rest : List (PieceOp Side StraightRoute) :=
  p.copySignalState ++ (p.toStraightTrackWithDetector.detectorRoute ++ handleInitState)

theorem plugins_eq : p.plugins = [(18, some p.virtualRouteOut), (19, some []),
    (20, some p.rawDetectorOccupancy), (23, some p.copySignalState),
    (30, some p.toStraightTrackWithDetector.detectorRoute), (10000, some handleInitState)] := by
  simp [plugins, StraightTrackWithDetector.plugins, StraightTrack.plugins, AutomataPlugin.init,
    AutomataPlugin.addAutomataPlugin, AutomataPlugin.removeAutomataPlugins]
  rfl

theorem body_eq : p.body = p.virtualRouteOut ++ (p.rawDetectorOccupancy ++ p.rest) := by
  rw [body, plugins_eq]
  simp [AutomataPlugin.runAll, rest]

/-- What happens to the piece: a tick of its timer, or a run of its automaton in which the bits have
these values at first. -/
inductive Event where
  | tick
  | run (bits : Bit Side StraightRoute → Bool)

/-- A step of the piece.  The occupancy and the debounce bit are written by the piece only. -/
def step (s : Layout (Bit Side StraightRoute)) :
    Event → Option (Layout (Bit Side StraightRoute))
  | .tick => some { s with timer := if s.timer = 0 then 0 else s.timer - 1 }
  | .run bits =>
    if bits .simulatedOccupancy = s.bits .simulatedOccupancy ∧
        bits (.foreign p.debounceTempVar) = s.bits (.foreign p.debounceTempVar) then
      some ({ s with bits := bits }.run p.body)
    else none

/-! ### The debounced occupancy -/

/-- The timer, the debounce bit and the occupancy. -/
def debounce (s : Layout (Bit Side StraightRoute)) : Debounce where
  timer := s.timer
  last := s.bits (.foreign p.debounceTempVar)
  occupied := s.bits .simulatedOccupancy

/-- There is a route out: one of the output routes is set, or there are none to look at. -/
def routeOut (bits : Bit Side StraightRoute → Bool) : Bool :=
  p.outputRoutes.isEmpty || p.outputRoutes.any fun v => bits (.foreign v)

/-- What a run with these bits samples. -/
def sampleOf (bits : Bit Side StraightRoute → Bool) : Sample where
  raw := bits (.foreign p.rawDetector)
  routeAb := bits (.routeSet .ab)
  routeBa := bits (.routeSet .ba)
  outputRoute := p.routeOut bits

/-- What the operations on the edges read. -/
def sampled (s : Layout (Bit Side StraightRoute)) : Sample where
  raw := s.bits (.foreign p.rawDetector)
  routeAb := s.bits (.routeSet .ab)
  routeBa := s.bits (.routeSet .ba)
  outputRoute := s.bits (.foreign p.outputRouteTempVar)

section Edges

variable {p} {s : Layout (Bit Side StraightRoute)}

theorem debounce_detectorEdges_zero (hm : p.minOccupiedTime = 0) :
    p.debounce (s.run p.detectorEdges) = (p.debounce s).edge 0 (p.sampled s) := by
  have hne := p.raw_ne_debounce
  rw [detectorEdges, if_neg (not_not_intro hm)]
  cases hraw : s.bits (.foreign p.rawDetector) <;>
    cases hlast : s.bits (.foreign p.debounceTempVar) <;>
    cases hab : s.bits (.routeSet .ab) <;> cases hba : s.bits (.routeSet .ba) <;>
    cases hout : s.bits (.foreign p.outputRouteTempVar) <;>
    simp [Layout.run, Layout.exec, Layout.test, Layout.perform, Layout.setBit,
      debounce, sampled, Debounce.edge, Debounce.busyEdge, Debounce.mayFree,
      Function.update_apply, hraw, hlast, hab, hba, hout, hne, hne.symm]

theorem debounce_detectorEdges_pos (hm : p.minOccupiedTime ≠ 0) :
    p.debounce (s.run p.detectorEdges) =
      ((p.debounce s).edge p.minOccupiedTime (p.sampled s)).arise p.minOccupiedTime := by
  have hne := p.raw_ne_debounce
  rw [detectorEdges, if_pos hm]
  by_cases htimer : s.timer = 0 <;>
    cases hraw : s.bits (.foreign p.rawDetector) <;>
    cases hlast : s.bits (.foreign p.debounceTempVar) <;>
    cases hocc : s.bits .simulatedOccupancy <;>
    cases hab : s.bits (.routeSet .ab) <;> cases hba : s.bits (.routeSet .ba) <;>
    simp [Layout.run, Layout.exec, Layout.test, Layout.perform, Layout.setBit,
      debounce, sampled, Debounce.edge, Debounce.busyEdge, Debounce.mayFree, Debounce.arise,
      Function.update_apply, htimer, hraw, hlast, hocc, hab, hba, hne, hne.symm, hm,
      kTimeTakenToGoBusy, kTimeTakenToGoFree]

theorem debounce_detectorEdges : p.debounce (s.run p.detectorEdges) =
    ((p.debounce s).edge p.minOccupiedTime (p.sampled s)).arise p.minOccupiedTime := by
  by_cases hm : p.minOccupiedTime = 0
  · rw [debounce_detectorEdges_zero hm, hm, Debounce.arise, if_neg (by simp)]
  · exact debounce_detectorEdges_pos hm

theorem debounce_settleOccupancy :
    p.debounce (s.run p.settleOccupancy) = (p.debounce s).settle := by
  by_cases htimer : s.timer = 0 <;>
    cases hlast : s.bits (.foreign p.debounceTempVar) <;>
    cases hocc : s.bits .simulatedOccupancy <;>
    simp [settleOccupancy, Layout.run, Layout.exec, Layout.test, Layout.perform, Layout.setBit,
      debounce, Debounce.settle, Function.update_apply, htimer, hlast, hocc]

/-- What the plugin makes of the occupancy, in a run that is not the first. -/
theorem debounce_rawDetectorOccupancy (hstate : s.state ≠ UInt8.ofNat stInit) :
    p.debounce (s.run p.rawDetectorOccupancy) =
      (p.debounce s).sample p.minOccupiedTime (p.sampled s) := by
  have hfirst : s.run p.rawDetectorOccupancy = (s.exec _).run _ := rfl
  rw [hfirst, s.exec_of_state_ne hstate List.mem_cons_self, Layout.run_append,
    debounce_settleOccupancy, debounce_detectorEdges, Debounce.sample]

/-- In the first run, the detector is found busy. -/
theorem last_rawDetectorOccupancy (hstate : s.state = UInt8.ofNat stInit) :
    (p.debounce (s.run p.rawDetectorOccupancy)).last = false := by
  have hfirst : s.run p.rawDetectorOccupancy = (s.exec _).run _ := rfl
  rw [hfirst, s.exec_ifState hstate, Layout.run_append, debounce_settleOccupancy,
    debounce_detectorEdges, ← Debounce.sample]
  refine Bool.eq_false_iff.mpr fun hlast => ?_
  have hraw := (Debounce.sample_last hlast).1
  simp [sampled, Layout.perform, Layout.setBit, Function.update_apply, p.raw_ne_debounce] at hraw

end Edges

/-! ### The other plugins -/

section Run

variable {p} {s : Layout (Bit Side StraightRoute)}

/-- A write of another variable. -/
theorem any_setBit (s : Layout (Bit Side StraightRoute)) {vars : List (Bit Side StraightRoute)}
    {dst : Bit Side StraightRoute} (hdst : dst ∉ vars) (value : Bool) :
    vars.any (s.setBit dst value).bits = vars.any s.bits := by
  rw [Bool.eq_iff_iff, List.any_eq_true, List.any_eq_true]
  refine exists_congr fun w => and_congr_right fun hw => ?_
  have hne : w ≠ dst := fun h => hdst (h ▸ hw)
  simp [Layout.setBit, hne]

/-- Operations that set a variable if one of these is set. -/
theorem run_collect (s : Layout (Bit Side StraightRoute)) {vars : List (Bit Side StraightRoute)}
    {dst : Bit Side StraightRoute} (hdst : dst ∉ vars) :
    s.run (vars.map fun v => (⟨[.ifReg1 v], [.actReg1 dst]⟩ : PieceOp Side StraightRoute)) =
      if vars.any s.bits then s.setBit dst true else s := by
  induction vars generalizing s with
  | nil => rfl
  | cons v vars ih =>
    obtain ⟨-, hrest⟩ : dst ≠ v ∧ dst ∉ vars := by simpa using hdst
    have hrun : s.run ((v :: vars).map fun v => (⟨[.ifReg1 v], [.actReg1 dst]⟩ : PieceOp _ _)) =
        (s.exec ⟨[.ifReg1 v], [.actReg1 dst]⟩).run
          (vars.map fun v => ⟨[.ifReg1 v], [.actReg1 dst]⟩) :=
      rfl
    rw [hrun, List.any_cons]
    cases hbit : s.bits v with
    | false =>
      have hexec : s.exec (⟨[.ifReg1 v], [.actReg1 dst]⟩ : PieceOp _ _) = s := by
        simp [Layout.exec, Layout.test, hbit]
      rw [hexec, ih s hrest]
      rfl
    | true =>
      have hexec : s.exec (⟨[.ifReg1 v], [.actReg1 dst]⟩ : PieceOp _ _) = s.setBit dst true := by
        simp [Layout.exec, Layout.test, Layout.perform, hbit]
      rw [hexec, ih _ hrest, any_setBit s hrest]
      simp [Layout.setBit]

/-- Operations that say whether one of these variables is set. -/
theorem run_anyOf (s : Layout (Bit Side StraightRoute)) {vars : List (Bit Side StraightRoute)}
    {dst : Bit Side StraightRoute} (hdst : dst ∉ vars) :
    s.run ((⟨vars.map .ifReg0, [.actReg0 dst]⟩ : PieceOp Side StraightRoute) ::
      vars.map fun v => ⟨[.ifReg1 v], [.actReg1 dst]⟩) = s.setBit dst (vars.any s.bits) := by
  have hrun : s.run ((⟨vars.map .ifReg0, [.actReg0 dst]⟩ : PieceOp Side StraightRoute) ::
      vars.map fun v => ⟨[.ifReg1 v], [.actReg1 dst]⟩) =
    (s.exec (⟨vars.map .ifReg0, [.actReg0 dst]⟩ : PieceOp Side StraightRoute)).run
      (vars.map fun v => (⟨[.ifReg1 v], [.actReg1 dst]⟩ : PieceOp _ _)) := rfl
  rw [hrun, run_collect _ hdst]
  cases hany : vars.any s.bits with
  | true =>
    have hexec : s.exec (⟨vars.map .ifReg0, [.actReg0 dst]⟩ : PieceOp Side StraightRoute) = s := by
      refine if_neg fun hall => ?_
      obtain ⟨v, hv, hbit⟩ := List.any_eq_true.mp hany
      have htest := List.all_eq_true.mp hall _ (List.mem_map_of_mem hv)
      rw [Layout.test_ifReg0] at htest
      cases hbit.symm.trans htest
    rw [hexec, if_pos hany]
  | false =>
    have hexec : s.exec (⟨vars.map .ifReg0, [.actReg0 dst]⟩ : PieceOp Side StraightRoute) =
        s.setBit dst false := by
      refine if_pos (List.all_eq_true.mpr fun c hc => ?_)
      obtain ⟨v, hv, rfl⟩ := List.mem_map.mp hc
      rw [Layout.test_ifReg0]
      exact Bool.eq_false_iff.mpr fun hbit => Bool.eq_false_iff.mp hany
        (List.any_eq_true.mpr ⟨v, hv, hbit⟩)
    rw [hexec, any_setBit s hdst, hany]
    rfl

/-- `VirtualRouteOut` says whether there is a route out. -/
theorem run_virtualRouteOut (p : StraightTrackWithRawDetector)
    (s : Layout (Bit Side StraightRoute)) :
    s.run p.virtualRouteOut = s.setBit (.foreign p.outputRouteTempVar) (p.routeOut s.bits) := by
  rw [virtualRouteOut, routeOut]
  split
  · next hnil =>
    rw [hnil]
    rfl
  · next hne =>
    have hdst : Bit.foreign p.outputRouteTempVar ∉
        p.outputRoutes.map (Bit.foreign (S := Side) (R := StraightRoute)) := by
      intro hmem
      obtain ⟨n, hn, heq⟩ := List.mem_map.mp hmem
      cases heq
      exact p.output_ne_outputRoute _ hn rfl
    have hrun := run_anyOf s hdst
    rw [List.map_map, List.map_map, List.any_map] at hrun
    have hempty : p.outputRoutes.isEmpty = false := by simpa using hne
    rw [hempty]
    exact hrun

/-- `HandleInitState` ends the initial state. -/
theorem run_handleInitState (s : Layout (Bit Side StraightRoute)) :
    s.run handleInitState =
      { s with state := if s.state = UInt8.ofNat stInit then UInt8.ofNat stBase else s.state } := by
  have hrun : s.run handleInitState = s.exec ⟨[.ifState stInit], [.actState stBase]⟩ := rfl
  rw [hrun]
  split
  · next hstate => exact s.exec_ifState hstate _
  · next hstate => exact s.exec_of_state_ne hstate List.mem_cons_self

theorem writeOnly_signalsAndRoutes (p : StraightTrackWithRawDetector) :
    WriteOnly (fun v => v ≠ .simulatedOccupancy ∧ v ≠ .foreign p.debounceTempVar)
      (p.copySignalState ++ p.toStraightTrackWithDetector.detectorRoute) := by
  refine EachAction.append ?_ (EachAction.append (EachAction.cons (by simp [Action.Writes]) ?_) ?_)
  · exact (writeOnly_copySignals _ (by simp) (by simp) _).append
      (writeOnly_copySignals _ (by simp) (by simp) _)
  · exact writeOnly_simulateRoute _ _ _ _ _ (by simp) (by simp) (by simp) (by simp)
  · exact writeOnly_simulateRoute _ _ _ _ _ (by simp) (by simp) (by simp) (by simp)

/-- The plugins after the occupancy leave it alone. -/
theorem run_rest (p : StraightTrackWithRawDetector) (s : Layout (Bit Side StraightRoute)) :
    p.debounce (s.run p.rest) = p.debounce s ∧ (s.run p.rest).state =
      if s.state = UInt8.ofNat stInit then UInt8.ofNat stBase else s.state := by
  have hwrites := p.writeOnly_signalsAndRoutes
  have hframe := hwrites.touches.agree s
  rw [rest, ← List.append_assoc, Layout.run_append, run_handleInitState, hframe.state]
  refine ⟨?_, rfl⟩
  simp only [debounce, Debounce.mk.injEq]
  exact ⟨hwrites.timer s, hframe.bits _ (by simp), hframe.bits _ (by simp)⟩

theorem state_rawDetectorOccupancy (p : StraightTrackWithRawDetector)
    (s : Layout (Bit Side StraightRoute)) : (s.run p.rawDetectorOccupancy).state = s.state := by
  refine s.state_run ?_
  have hedges : ∀ op ∈ p.detectorEdges, ∀ a ∈ op.acts, ∀ state, a ≠ .actState state := by
    unfold detectorEdges
    split <;> simp
  simpa [rawDetectorOccupancy, settleOccupancy, or_imp, forall_and] using hedges

/-- A run that is not the first samples the detector. -/
theorem debounce_body (p : StraightTrackWithRawDetector) {s : Layout (Bit Side StraightRoute)}
    (hstate : s.state ≠ UInt8.ofNat stInit) :
    p.debounce (s.run p.body) = (p.debounce s).sample p.minOccupiedTime (p.sampleOf s.bits) ∧
      (s.run p.body).state = s.state := by
  rw [body_eq, Layout.run_append, Layout.run_append, run_virtualRouteOut]
  have hsample := debounce_rawDetectorOccupancy (p := p)
    (s := s.setBit (.foreign p.outputRouteTempVar) (p.routeOut s.bits)) hstate
  obtain ⟨hdebounce, hrest⟩ := p.run_rest ((s.setBit (.foreign p.outputRouteTempVar)
    (p.routeOut s.bits)).run p.rawDetectorOccupancy)
  rw [hdebounce, hrest, state_rawDetectorOccupancy, hsample]
  refine ⟨?_, if_neg hstate⟩
  congr 1
  · simp [sampled, sampleOf, Layout.setBit, p.raw_ne_outputRoute]
  · simp [debounce, Layout.setBit, p.debounce_ne_outputRoute]

/-- After the first run, the detector counts as busy. -/
theorem debounce_first (p : StraightTrackWithRawDetector) {s : Layout (Bit Side StraightRoute)}
    (hstate : s.state = UInt8.ofNat stInit) : (p.debounce (s.run p.body)).last = false ∧
      (s.run p.body).state = UInt8.ofNat stBase := by
  rw [body_eq, Layout.run_append, Layout.run_append, run_virtualRouteOut]
  obtain ⟨hdebounce, hrest⟩ := p.run_rest ((s.setBit (.foreign p.outputRouteTempVar)
    (p.routeOut s.bits)).run p.rawDetectorOccupancy)
  rw [hdebounce, hrest, state_rawDetectorOccupancy]
  exact ⟨last_rawDetectorOccupancy hstate, if_pos hstate⟩

end Run

/-! ### Histories -/

/-- The timer ticks in a history. -/
def ticks (history : List Event) : Nat :=
  history.countP fun
    | .tick => true
    | .run _ => false

/-- What an event is to the debounced occupancy. -/
def debounced (p : StraightTrackWithRawDetector) : Event → DebounceEvent
  | .tick => .tick
  | .run bits => .sample (p.sampleOf bits)

section Histories

variable {p} {s s' : Layout (Bit Side StraightRoute)} {history : List Event}

theorem ticks_debounced (p : StraightTrackWithRawDetector) (history : List Event) :
    Debounce.ticks (history.map p.debounced) = ticks history := by
  rw [Debounce.ticks, List.count, List.countP_map, ticks]
  congr 1
  funext e
  cases e <;> rfl

/-- Every step after the first run is one of the debounced occupancy. -/
theorem debounce_step {e : Event} (hstate : s.state ≠ UInt8.ofNat stInit)
    (h : p.step s e = some s') : s'.state ≠ UInt8.ofNat stInit ∧
      Debounce.step p.minOccupiedTime (p.debounce s) (p.debounced e) = some (p.debounce s') := by
  cases e with
  | tick =>
    obtain rfl := Option.some.inj h
    exact ⟨hstate, rfl⟩
  | run bits =>
    rw [step] at h
    split at h
    · next hown =>
      obtain rfl := Option.some.inj h
      have hsame : p.debounce { s with bits := bits } = p.debounce s := by
        simp [debounce, hown.1, hown.2]
      obtain ⟨hdebounce, hkept⟩ := p.debounce_body (s := { s with bits := bits }) hstate
      rw [hkept, hdebounce, hsame]
      exact ⟨hstate, rfl⟩
    · cases h

theorem debounce_run (hstate : s.state ≠ UInt8.ofNat stInit)
    (h : Trace.run p.step s history = some s') : s'.state ≠ UInt8.ofNat stInit ∧
      Trace.run (Debounce.step p.minOccupiedTime) (p.debounce s) (history.map p.debounced) =
        some (p.debounce s') := by
  induction history generalizing s with
  | nil =>
    cases h
    exact ⟨hstate, rfl⟩
  | cons e history ih =>
    obtain ⟨t, hstep, hrun⟩ := Option.bind_eq_some_iff.mp (Trace.run_cons ▸ h)
    obtain ⟨hstate', hdebounce⟩ := debounce_step hstate hstep
    obtain ⟨hend, htrace⟩ := ih hstate' hrun
    refine ⟨hend, ?_⟩
    rw [List.map_cons, Trace.run_cons, hdebounce]
    exact htrace

/-- The occupancy ends in a run only if the detector has been free for the delay. -/
theorem free_of_ends (hstate : s.state ≠ UInt8.ofNat stInit) (hstart : (p.debounce s).last = false)
    (hrun : Trace.run p.step s history = some s') {bits : Bit Side StraightRoute → Bool}
    {t : Layout (Bit Side StraightRoute)} (hstep : p.step s' (.run bits) = some t)
    (hbefore : s'.bits .simulatedOccupancy = true) (hafter : t.bits .simulatedOccupancy = false) :
    bits (.foreign p.rawDetector) = true ∧ ∃ past since, history = past ++ since ∧
      kTimeTakenToGoFree ≤ ticks since ∧
      ∀ bits, .run bits ∈ since → bits (.foreign p.rawDetector) = true := by
  obtain ⟨hstate', htrace⟩ := debounce_run hstate hrun
  have hsample := Option.some.inj (debounce_step hstate' hstep).2
  obtain ⟨hraw, hlast, htimer⟩ := Debounce.sample_ends (d := p.debounce s') hbefore
    (by rw [hsample]; exact hafter)
  obtain ⟨past, since, heq, hticks, hfree⟩ := Debounce.free_since hstart htrace hlast
  obtain ⟨past, since, rfl, rfl, rfl⟩ := List.map_eq_append_iff.mp heq
  refine ⟨hraw, past, since, rfl, ?_, fun bits hbits => ?_⟩
  · rw [ticks_debounced, htimer] at hticks
    exact hticks
  · exact hfree _ (List.mem_map_of_mem hbits)

/-- With a minimum time, an occupancy lasts for it and for the delay. -/
theorem ticks_of_begins (hm : p.minOccupiedTime ≠ 0) (hmax : p.minOccupiedTime ≤ 30)
    (hstate : s.state ≠ UInt8.ofNat stInit) {bits bits' : Bit Side StraightRoute → Bool}
    {t u u' : Layout (Bit Side StraightRoute)} (hstep : p.step s (.run bits) = some t)
    (hbefore : s.bits .simulatedOccupancy = false) (hbegins : t.bits .simulatedOccupancy = true)
    (hrun : Trace.run p.step t history = some u) (hstep' : p.step u (.run bits') = some u')
    (hoccupied : u.bits .simulatedOccupancy = true)
    (hends : u'.bits .simulatedOccupancy = false) :
    p.minOccupiedTime + kTimeTakenToGoFree ≤ ticks history := by
  obtain ⟨hstate', hsample⟩ := debounce_step hstate hstep
  obtain ⟨hlast, htimer⟩ := Debounce.sample_begins (d := p.debounce s) (i := p.sampleOf bits) hm
    hbefore (by rw [Option.some.inj hsample]; exact hbegins)
  rw [Option.some.inj hsample] at hlast htimer
  obtain ⟨hstate'', htrace⟩ := debounce_run hstate' hrun
  have hend := Option.some.inj (debounce_step hstate'' hstep').2
  obtain ⟨-, hlast', htimer'⟩ := Debounce.sample_ends (d := p.debounce u) hoccupied
    (by rw [hend]; exact hends)
  have hdelay : p.minOccupiedTime + kTimeTakenToGoFree ≤ (p.debounce t).delay := by
    rw [Debounce.delay, hlast, htimer, UInt8.toNat_ofNat', Nat.mod_eq_of_lt (by omega)]
    exact Nat.le_refl _
  have hrest := Debounce.delay_run hm hmax (by simp [Debounce.Timed, hlast]) hdelay htrace
  rw [ticks_debounced, Debounce.delay, hlast', htimer'] at hrest
  exact hrest

/-- Without a minimum time, an occupancy with a route in lasts until there is a route out. -/
theorem held_of_route (hm : p.minOccupiedTime = 0) (houtputs : p.outputRoutes ≠ [])
    (hstate : s.state ≠ UInt8.ofNat stInit) (hlast : s.bits (.foreign p.debounceTempVar) = false)
    (hrun : Trace.run p.step s history = some s') {bits : Bit Side StraightRoute → Bool}
    {t : Layout (Bit Side StraightRoute)} (hstep : p.step s' (.run bits) = some t)
    (hroutes : ∀ bits', Event.run bits' ∈ history ++ [Event.run bits] →
      bits' (.routeSet .ab) = true ∧ ∀ v ∈ p.outputRoutes, bits' (.foreign v) = false)
    (hoccupied : s'.bits .simulatedOccupancy = true) : t.bits .simulatedOccupancy = true := by
  have hsample : ∀ bits', Event.run bits' ∈ history ++ [Event.run bits] →
      (p.sampleOf bits').routeAb = true ∧ (p.sampleOf bits').outputRoute = false := by
    intro bits' hbits'
    obtain ⟨hab, hout⟩ := hroutes bits' hbits'
    refine ⟨hab, ?_⟩
    simpa [sampleOf, routeOut, houtputs] using hout
  obtain ⟨hstate', htrace⟩ := debounce_run hstate hrun
  have hend := Option.some.inj (debounce_step hstate' hstep).2
  rw [hm] at htrace hend
  have hheld := Debounce.held_run (d := p.debounce s) hlast (fun i hi => ?_) htrace
  · obtain ⟨hab, hout⟩ := hsample bits (by simp)
    have hlasts := (Debounce.sample_held rfl hheld.1 hab hout).2 hoccupied
    rw [hend] at hlasts
    exact hlasts
  · obtain ⟨e, he, heq⟩ := List.mem_map.mp hi
    cases e with
    | tick => cases heq
    | run bits' =>
      cases heq
      exact hsample bits' (List.mem_append_left _ he)

end Histories

end StraightTrackWithRawDetector

open StraightTrackWithRawDetector in
/-- The occupancy after the first run: it ends when the detector has been free for the delay, it
lasts for the minimum time and the delay, and a route in without a route out holds it. -/
theorem occupancy_debounced (p : StraightTrackWithRawDetector) (hmax : p.minOccupiedTime ≤ 30)
    {first : Layout (Bit Side StraightRoute)} (hfirst : first.state = UInt8.ofNat stInit) :
    (∀ history s bits s', Trace.run p.step (first.run p.body) history = some s →
      p.step s (.run bits) = some s' → s.bits .simulatedOccupancy = true →
      s'.bits .simulatedOccupancy = false → bits (.foreign p.rawDetector) = true ∧
        ∃ past since, history = past ++ since ∧ 3 ≤ ticks since ∧
          ∀ bits, .run bits ∈ since → bits (.foreign p.rawDetector) = true) ∧
    (p.minOccupiedTime ≠ 0 → ∀ past s bits s' history t bits' t',
      Trace.run p.step (first.run p.body) past = some s → p.step s (.run bits) = some s' →
      s.bits .simulatedOccupancy = false → s'.bits .simulatedOccupancy = true →
      Trace.run p.step s' history = some t → p.step t (.run bits') = some t' →
      t.bits .simulatedOccupancy = true → t'.bits .simulatedOccupancy = false →
        p.minOccupiedTime + 3 ≤ ticks history) ∧
    (p.minOccupiedTime = 0 → p.outputRoutes ≠ [] → ∀ past s history t bits t',
      Trace.run p.step (first.run p.body) past = some s →
      s.bits (.foreign p.debounceTempVar) = false → Trace.run p.step s history = some t →
      p.step t (.run bits) = some t' →
      (∀ bits', .run bits' ∈ history ++ [.run bits] → bits' (.routeSet .ab) = true ∧
        ∀ v ∈ p.outputRoutes, bits' (.foreign v) = false) →
      t.bits .simulatedOccupancy = true → t'.bits .simulatedOccupancy = true) := by
  obtain ⟨hlast, hbase⟩ := p.debounce_first hfirst
  have hstate : (first.run p.body).state ≠ UInt8.ofNat stInit := by
    rw [hbase]
    decide
  refine ⟨?_, ?_, ?_⟩
  · intro history s bits s' hrun hstep hbefore hafter
    exact free_of_ends hstate hlast hrun hstep hbefore hafter
  · intro hm past s bits s' history t bits' t' hpast hstep hbefore hbegins hrun hstep' hocc hends
    exact ticks_of_begins hm hmax (debounce_run hstate hpast).1 hstep hbefore hbegins hrun hstep'
      hocc hends
  · intro hm houtputs past s history t bits t' hpast hdebounce hrun hstep hroutes hocc
    exact held_of_route hm houtputs (debounce_run hstate hpast).1 hdebounce hrun hstep hroutes hocc

/-- A platform with a minimum occupied time, between two other pieces. -/
def platform : StraightTrackWithRawDetector where
  binding
    | .a => ⟨.other 0, none, none⟩
    | .b => ⟨.other 1, none, none⟩
  hasResetRoutes := false
  externalOccupancy := none
  rawDetector := 0
  debounceTempVar := 1
  outputRouteTempVar := 2
  outputRoutes := [3]
  minOccupiedTime := 2
  raw_ne_debounce := by decide
  raw_ne_outputRoute := by decide
  debounce_ne_outputRoute := by decide
  output_ne_outputRoute := by decide

/-- The values in a run of the platform, without a route. -/
def reading (raw last occupied : Bool) : Bit Side StraightRoute → Bool
  | .foreign 0 => raw
  | .foreign 1 => last
  | .simulatedOccupancy => occupied
  | _ => false

/-- The platform before its first run. -/
def newPlatform : Layout (Bit Side StraightRoute) where
  state := 0
  timer := 0
  aspect := 0
  bits := reading false false false
  values _ _ := 0

open StraightTrackWithRawDetector in
/-- The occupancy of the platform after a history that follows its first run. -/
def platformOccupancy (history : List Event) : Option Bool :=
  (Trace.run platform.step (newPlatform.run platform.body) history).map
    (·.bits .simulatedOccupancy)

open StraightTrackWithRawDetector in
/-- A train that arrives and leaves at once occupies the platform for five ticks. -/
theorem platform_debounced : ∃ s s' t t' : Layout (Bit Side StraightRoute),
    Trace.run platform.step (newPlatform.run platform.body) [.tick, .tick] = some s ∧
    platform.step s (.run (reading false false false)) = some s' ∧
    Trace.run platform.step s'
      [.tick, .tick, .run (reading true false true), .tick, .tick, .tick] = some t ∧
    platform.step t (.run (reading true true true)) = some t' ∧
    t'.bits .simulatedOccupancy = false ∧
    platform.minOccupiedTime + 3 ≤
      ticks [.tick, .tick, .run (reading true false true), .tick, .tick, .tick] := by
  have hfree : platformOccupancy [Event.tick, Event.tick] = some false := by
    set_option maxRecDepth 2000 in
    decide
  have hbusy : platformOccupancy
      ([Event.tick, Event.tick] ++ [Event.run (reading false false false)]) = some true := by
    set_option maxRecDepth 2000 in
    decide
  have hlast : platformOccupancy
      (([Event.tick, Event.tick] ++ [Event.run (reading false false false)]) ++
        [Event.tick, Event.tick, Event.run (reading true false true), Event.tick, Event.tick,
          Event.tick]) = some true := by
    set_option maxRecDepth 2000 in
    decide
  have hend : platformOccupancy
      ((([Event.tick, Event.tick] ++ [Event.run (reading false false false)]) ++
        [Event.tick, Event.tick, Event.run (reading true false true), Event.tick, Event.tick,
          Event.tick]) ++ [Event.run (reading true true true)]) = some false := by
    set_option maxRecDepth 2000 in
    decide
  obtain ⟨t', ht', hfreed⟩ := Option.map_eq_some_iff.mp hend
  obtain ⟨t, ht, hstep'⟩ := Trace.run_concat_eq_some.mp ht'
  rw [Trace.run_append] at ht
  obtain ⟨s', hs', hrun⟩ := Option.bind_eq_some_iff.mp ht
  obtain ⟨s, hs, hstep⟩ := Trace.run_concat_eq_some.mp hs'
  rw [platformOccupancy, hs] at hfree
  rw [platformOccupancy, hs'] at hbusy
  rw [platformOccupancy, Trace.run_append, hs', Option.bind_some, hrun] at hlast
  refine ⟨s, s', t, t', hs, hstep, hrun, hstep', hfreed, ?_⟩
  exact (occupancy_debounced platform (by decide) rfl).2.1 (by decide) _ _ _ _ _ _ _ _ hs hstep
    (Option.some.inj hfree) (Option.some.inj hbusy) hrun hstep' (Option.some.inj hlast) hfreed

end OpenmrnCue.Automata
