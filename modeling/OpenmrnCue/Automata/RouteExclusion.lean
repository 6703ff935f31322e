import OpenmrnCue.Library.Except
import OpenmrnCue.Automata.Reservation

/-! A track piece never holds two routes: the plugins of every piece render operations that keep its
reservation, and therefore so does every run of its body. -/

namespace OpenmrnCue.Automata

/-! ## Plugins -/

section Each

variable {S R : Type} {P : PieceOp S R → Prop} {plugins : AutomataPlugin S R}

/-- All operations that the plugins render have a property. -/
def EachOperation (P : PieceOp S R → Prop) (plugins : AutomataPlugin S R) : Prop :=
  ∀ n ops, (n, some ops) ∈ plugins → ∀ op ∈ ops, P op

theorem EachOperation.add (h : EachOperation P plugins) {n : Nat}
    {cb : Option (List (PieceOp S R))} (hcb : ∀ ops, cb = some ops → ∀ op ∈ ops, P op) :
    EachOperation P (plugins.addAutomataPlugin n cb) := by
  intro n' ops hmem
  rcases List.mem_append.mp hmem with hmem | hmem
  · exact h n' ops (List.takeWhile_subset _ hmem)
  · rcases List.mem_cons.mp hmem with heq | hmem
    · cases heq
      exact hcb ops rfl
    · exact h n' ops (List.dropWhile_subset _ hmem)

theorem EachOperation.remove (h : EachOperation P plugins) (n : Nat) :
    EachOperation P (plugins.removeAutomataPlugins n) :=
  fun n' ops hmem => h n' ops (List.mem_of_mem_filter hmem)

theorem EachOperation.runAll (h : EachOperation P plugins) {ops : List (PieceOp S R)}
    (hops : plugins.runAll = some ops) : ∀ op ∈ ops, P op := by
  obtain ⟨opss, hmap, hops⟩ := Option.bind_eq_some_iff.mp hops
  cases hops
  intro op hop
  obtain ⟨rendered, hrendered, hop⟩ := List.mem_flatten.mp hop
  obtain ⟨⟨n, cb⟩, hplugin, hcb⟩ := Option.exists_of_mem_mapM hmap hrendered
  exact h n rendered (hcb ▸ hplugin) op hop

end Each

section Checks

open Interference

variable {S R : Type} [DecidableEq R] {routes : List R} {hasAny : Bool}

/-- All actions of the operations are mild. -/
def MildOps (ops : List (PieceOp S R)) : Prop := ∀ op ∈ ops, ∀ a ∈ op.acts, a.Mild

omit [DecidableEq R] in
theorem mild_append {ops ops' : List (PieceOp S R)} (h : MildOps ops) (h' : MildOps ops') :
    MildOps (ops ++ ops') := by
  intro op hop
  rcases List.mem_append.mp hop with hop | hop
  · exact h op hop
  · exact h' op hop

omit [DecidableEq R] in
theorem mild_flatten {opss : List (List (PieceOp S R))} (h : ∀ ops ∈ opss, MildOps ops) :
    MildOps opss.flatten := by
  intro op hop
  obtain ⟨ops, hops, hop⟩ := List.mem_flatten.mp hop
  exact h ops hops op hop

omit [DecidableEq R] in
theorem mild_releaseRouteCallback (sideOut : S) (r : R) :
    ∀ a ∈ releaseRouteCallback sideOut (.routeSet r), a.Mild := by
  intro a ha
  rcases List.mem_cons.mp ha with rfl | ha
  · exact id
  · rw [List.mem_singleton.mp ha]
    trivial

omit [DecidableEq R] in
theorem mild_defCopy (src : Bit S R) {dst : Bit S R} (hdst : ¬ dst.Kept)
    (condition : Conditions S R) : MildOps (defCopy src dst condition) := by
  intro op hop a ha
  simp only [defCopy, List.mem_cons, List.not_mem_nil, or_false] at hop
  rcases hop with rfl | rfl
  · rw [List.mem_singleton.mp ha]
    exact mild_actReg0 hdst
  · rw [List.mem_singleton.mp ha]
    exact hdst

omit [DecidableEq R] in
theorem mild_copySignals (src dst : CtrlTrackInterface S) (condition : Conditions S R) :
    MildOps (copySignals src dst condition) :=
  mild_append (mild_defCopy _ id _) (mild_defCopy _ id _)

omit [DecidableEq R] in
theorem mild_proxyOneDetector (condition : Conditions S R) (next : Option (Bit S R))
    {proxy : Bit S R} (hproxy : ¬ proxy.Kept) :
    MildOps (proxyOneDetector condition next proxy) := by
  intro op hop a ha
  cases next with
  | none =>
    rw [List.mem_singleton.mp hop] at ha
    rw [List.mem_singleton.mp ha]
    exact mild_actReg0 hproxy
  | some det =>
    simp only [proxyOneDetector, List.mem_cons, List.not_mem_nil, or_false] at hop
    rcases hop with rfl | rfl
    · rw [List.mem_singleton.mp ha]
      exact mild_actReg0 hproxy
    · rw [List.mem_singleton.mp ha]
      exact hproxy

omit [DecidableEq R] in
theorem mild_proxyDetector (condition : Conditions S R) (s : S) (binding : Binding S R) :
    MildOps (proxyDetector condition (.detectorNext s) (.detectorFar s) binding) :=
  mild_append (mild_proxyOneDetector _ _ id) (mild_proxyOneDetector _ _ id)

/-- `SimulateOccupancy` gives up at most the route of its callback. -/
theorem mild_simulateOccupancy [DecidableEq S] {t : Track S R} {routeSet : Bit S R} {past next : S}
    {releaseCb : Actions S R} (hrelease : ∀ a ∈ releaseCb, a.Mild) {ops : List (PieceOp S R)}
    (h : simulateOccupancy t routeSet past next releaseCb = some ops) : MildOps ops := by
  obtain ⟨previousOcc, -, h⟩ := Option.bind_eq_some_iff.mp h
  cases h
  refine mild_append (mild_append (mild_append (mild_append ?_ ?_) ?_) ?_) ?_
  · intro op hop a ha
    split at hop
    · simp only [List.mem_cons, List.not_mem_nil, or_false] at hop
      rcases hop with rfl | rfl <;> rw [List.mem_singleton.mp ha] <;> exact id
    · cases hop
  · intro op hop a ha
    rw [List.mem_singleton.mp hop] at ha
    simp only [List.mem_cons, List.not_mem_nil, or_false] at ha
    rcases ha with rfl | rfl <;> exact id
  · intro op hop a ha
    split at hop
    · rw [List.mem_singleton.mp hop] at ha
      simp only [List.mem_cons, List.not_mem_nil, or_false] at ha
      rcases ha with rfl | rfl <;> exact id
    · cases hop
  · intro op hop a ha
    split at hop
    · rw [List.mem_singleton.mp hop] at ha
      simp only [List.mem_append, List.mem_cons, List.not_mem_nil, or_false] at ha
      rcases ha with (rfl | rfl) | ha
      · exact id
      · exact id
      · exact hrelease a ha
    · cases hop
  · intro op hop a ha
    split at hop
    · split at hop
      · simp only [List.mem_cons, List.not_mem_nil, or_false] at hop
        rcases hop with rfl | rfl
        · rw [List.mem_singleton.mp ha]
          exact id
        · simp only [List.mem_append, List.mem_cons, List.not_mem_nil, or_false] at ha
          rcases ha with rfl | ha
          · exact id
          · exact hrelease a ha
      · cases hop
    · cases hop

/-- All plugins render checked operations. -/
def CheckedPlugins (routes : List R) (hasAny : Bool) (plugins : AutomataPlugin S R) : Prop :=
  ∀ n ops, (n, some ops) ∈ plugins → ∀ op ∈ ops, Checked routes hasAny op

theorem MildOps.checked {ops : List (PieceOp S R)} (h : MildOps ops) :
    ∀ op ∈ ops, Checked routes hasAny op :=
  fun op hop => checked_mild (h op hop)

theorem checkedPlugins_init :
    CheckedPlugins (S := S) routes hasAny AutomataPlugin.init := by
  intro n ops hmem op hop
  cases List.mem_singleton.mp hmem
  rw [List.mem_singleton.mp hop]
  exact checked_stInit (by simp)

theorem CheckedPlugins.add {plugins : AutomataPlugin S R} (h : CheckedPlugins routes hasAny plugins)
    {n : Nat} {cb : Option (List (PieceOp S R))}
    (hcb : ∀ ops, cb = some ops → ∀ op ∈ ops, Checked routes hasAny op) :
    CheckedPlugins routes hasAny (plugins.addAutomataPlugin n cb) :=
  EachOperation.add h hcb

theorem CheckedPlugins.remove {plugins : AutomataPlugin S R}
    (h : CheckedPlugins routes hasAny plugins) (n : Nat) :
    CheckedPlugins routes hasAny (plugins.removeAutomataPlugins n) :=
  EachOperation.remove h n

theorem CheckedPlugins.runAll {plugins : AutomataPlugin S R}
    (h : CheckedPlugins routes hasAny plugins) {ops : List (PieceOp S R)}
    (hops : plugins.runAll = some ops) : ∀ op ∈ ops, Checked routes hasAny op :=
  EachOperation.runAll h hops

end Checks

/-! ## Pieces -/

section Pieces

/-- The routes of a straight track. -/
def straightRoutes : List StraightRoute := [.ab, .ba]

namespace StraightTrack

variable (p : StraightTrack)

theorem mild_copyOccupancy (src : Bit Side StraightRoute) : MildOps (copyOccupancy src) := by
  intro op hop a ha
  simp only [copyOccupancy, List.mem_cons, List.not_mem_nil, or_false] at hop
  rcases hop with rfl | rfl | rfl | rfl
  · rw [List.mem_singleton.mp ha]
    exact id
  · exact mild_releaseRouteCallback _ _ a ha
  · exact mild_releaseRouteCallback _ _ a ha
  · rw [List.mem_singleton.mp ha]
    exact id

theorem mild_simulateAllOccupancy {ops : List (PieceOp Side StraightRoute)}
    (h : p.simulateAllOccupancy = some ops) : MildOps ops := by
  unfold simulateAllOccupancy at h
  split at h
  · cases h
    exact mild_copyOccupancy _
  · obtain ⟨ab, hab, h⟩ := Option.bind_eq_some_iff.mp h
    obtain ⟨ba, hba, h⟩ := Option.bind_eq_some_iff.mp h
    cases h
    exact mild_append (mild_simulateOccupancy (mild_releaseRouteCallback _ _) hab)
      (mild_simulateOccupancy (mild_releaseRouteCallback _ _) hba)

theorem mild_copySignalState : MildOps p.copySignalState :=
  mild_append (mild_copySignals _ _ _) (mild_copySignals _ _ _)

theorem checkedPlugins : CheckedPlugins straightRoutes false p.plugins := by
  refine (checkedPlugins_init.add fun ops h => ?_).add fun ops h => ?_
  · exact (p.mild_simulateAllOccupancy h).checked
  · cases h
    exact p.mild_copySignalState.checked

/-- The two calls of `SimulateRoute`, where each route is in conflict with the other one. -/
theorem checked_routes {conflictAb conflictBa : List (Bit Side StraightRoute)}
    (hab : .routeSet .ba ∈ conflictAb) (hba : .routeSet .ab ∈ conflictBa)
    {first : PieceOp Side StraightRoute} (hfirst : .ifState stInit ∈ first.ifs) :
    ∀ op ∈ first ::
      simulateRoute p.toTrack [] .a .b (.routePending .ab) [.routeSet .ab] conflictAb ++
      simulateRoute p.toTrack [] .b .a (.routePending .ba) [.routeSet .ba] conflictBa,
    Checked straightRoutes false op := by
  intro op hop
  rcases List.mem_append.mp hop with hop | hop
  · rcases List.mem_cons.mp hop with rfl | hop
    · exact checked_stInit hfirst
    · refine checked_simulateRoute p.toTrack [] _ _ (by decide) (fun _ r _ hne => ?_) op hop
      cases r with
      | ab => exact absurd rfl hne
      | ba => exact hab
  · refine checked_simulateRoute p.toTrack [] _ _ (by decide) (fun _ r _ hne => ?_) op hop
    cases r with
    | ab => exact hba
    | ba => exact absurd rfl hne

theorem checked_simulateAllRoutes :
    ∀ op ∈ p.simulateAllRoutes, Checked straightRoutes false op :=
  p.checked_routes (by simp) (by simp) (by simp)

theorem checked_shortPlugins : CheckedPlugins straightRoutes false p.shortPlugins :=
  p.checkedPlugins.add fun _ h => Option.some.inj h ▸ p.checked_simulateAllRoutes

theorem checked_longPlugins : CheckedPlugins straightRoutes false p.longPlugins :=
  p.checkedPlugins.add fun _ h => Option.some.inj h ▸ p.checked_simulateAllRoutes

end StraightTrack

namespace StraightTrackWithDetector

variable (p : StraightTrackWithDetector)

theorem mild_detectorOccupancy : MildOps p.detectorOccupancy := by
  intro op hop a ha
  simp only [detectorOccupancy, List.mem_cons, List.not_mem_nil, or_false] at hop
  rcases hop with rfl | rfl
  · rw [List.mem_singleton.mp ha]
    exact id
  · simp only [List.mem_cons, List.not_mem_nil, or_false] at ha
    rcases ha with rfl | rfl | rfl
    · trivial
    · trivial
    · exact id

theorem checked_detectorRoute :
    ∀ op ∈ p.detectorRoute, Checked straightRoutes false op :=
  p.checked_routes (by simp) (by simp) (by simp)

theorem checkedPlugins : CheckedPlugins straightRoutes false p.plugins := by
  refine ((p.toStraightTrack.checkedPlugins.remove 20).add fun ops h => ?_).add fun ops h => ?_
  · cases h
    exact p.mild_detectorOccupancy.checked
  · cases h
    exact p.checked_detectorRoute

end StraightTrackWithDetector

namespace TurnoutBase

variable (p : TurnoutBase)

/-- The routes of the directions. -/
def routes : List TurnoutRoute := p.directions.map (·.route)

theorem mild_turnoutOccupancy {ops : List (PieceOp TurnoutSide TurnoutRoute)}
    (h : p.turnoutOccupancy = some ops) : MildOps ops := by
  obtain ⟨opss, hmap, h⟩ := Option.bind_eq_some_iff.mp h
  cases h
  refine mild_flatten fun rendered hrendered => ?_
  obtain ⟨d, -, hd⟩ := Option.exists_of_mem_mapM hmap hrendered
  exact mild_simulateOccupancy (mild_releaseRouteCallback _ _) hd

theorem mild_proxySignals : MildOps p.proxySignals :=
  mild_append (mild_append (mild_append (mild_copySignals _ _ _) (mild_copySignals _ _ _))
    (mild_copySignals _ _ _)) (mild_copySignals _ _ _)

theorem mild_proxyDetectors : MildOps p.proxyDetectors :=
  mild_append (mild_proxyDetector _ _ _) (mild_proxyDetector _ _ _)

theorem checked_turnoutRoute : ∀ op ∈ p.turnoutRoute, Checked p.routes true op := by
  intro op hop
  rcases List.mem_append.mp hop with hop | hop
  · obtain ⟨d, -, rfl⟩ := List.mem_map.mp hop
    exact checked_stInit (by simp)
  · obtain ⟨d, hd, hop⟩ := List.mem_flatMap.mp hop
    exact checked_simulateRoute p.toTrack _ _ _ (List.mem_map_of_mem hd) (by simp) op hop

theorem checkedPlugins : CheckedPlugins p.routes true p.plugins := by
  refine ((((((checkedPlugins_init.add fun ops h => ?_).add fun ops h => ?_).add
    fun ops h => ?_).add fun ops h => ?_).add fun ops h => ?_).add fun ops h => ?_).add
    fun ops h => ?_
  · exact (p.mild_turnoutOccupancy h).checked
  · cases h
    exact p.mild_proxySignals.checked
  · cases h
    simp
  · cases h
    exact p.mild_proxyDetectors.checked
  · cases h
    simp
  · cases h
    exact p.checked_turnoutRoute
  · cases h
    exact checked_populateAnyRouteSet

end TurnoutBase

theorem mild_copyLocked {S R : Type} (magnet : MagnetBase) :
    MildOps (copyLocked (S := S) (R := R) magnet) :=
  mild_defCopy _ id _

/-- Operations that write `turnout_state_` only. -/
theorem mild_turnoutState {S R : Type} {ops : List (PieceOp S R)}
    (h : ∀ op ∈ ops, op.acts = [.actReg0 .turnoutState] ∨ op.acts = [.actReg1 .turnoutState]) :
    MildOps ops := by
  intro op hop a ha
  rcases h op hop with hacts | hacts
  · rw [hacts] at ha
    rw [List.mem_singleton.mp ha]
    exact id
  · rw [hacts] at ha
    rw [List.mem_singleton.mp ha]
    exact id

theorem MovableTurnout.checkedPlugins (p : MovableTurnout) :
    CheckedPlugins p.toTurnoutBase.routes true p.plugins := by
  refine (p.toTurnoutBase.checkedPlugins.add fun ops h => ?_).add fun ops h => ?_
  · cases h
    exact (mild_turnoutState (by simp [copyState])).checked
  · cases h
    exact (mild_copyLocked _).checked

theorem FixedTurnout.checkedPlugins (p : FixedTurnout) :
    CheckedPlugins p.toTurnoutBase.routes true p.plugins := by
  refine p.toTurnoutBase.checkedPlugins.add fun ops h => ?_
  unfold fixTurnoutState at h
  split at h <;> cases h
  · exact (mild_turnoutState (by simp)).checked
  · exact (mild_turnoutState (by simp)).checked

namespace DKW

variable (p : DKW)

theorem mild_dkwOccupancy {ops : List (PieceOp DKWPoint DKWRoute)}
    (h : dkwOccupancy p = some ops) : MildOps ops := by
  obtain ⟨opss, hmap, h⟩ := Option.bind_eq_some_iff.mp h
  cases h
  refine mild_flatten fun rendered hrendered => ?_
  obtain ⟨d, -, hd⟩ := Option.exists_of_mem_mapM hmap hrendered
  exact mild_simulateOccupancy (mild_releaseRouteCallback _ _) hd

theorem mild_proxySignals : MildOps (proxySignals p) := by
  intro op hop
  obtain ⟨r, -, hop⟩ := List.mem_flatMap.mp hop
  exact mild_copySignals _ _ _ op hop

theorem mild_proxyDetectors : MildOps (proxyDetectors p) := by
  intro op hop
  obtain ⟨r, -, hop⟩ := List.mem_flatMap.mp hop
  exact mild_proxyDetector _ _ _ op hop

theorem checked_dkwRoute : ∀ op ∈ dkwRoute p, Checked DKWRoute.all true op := by
  intro op hop
  rcases List.mem_append.mp hop with hop | hop
  · obtain ⟨d, -, rfl⟩ := List.mem_map.mp hop
    exact checked_stInit (by simp)
  · obtain ⟨d, hd, hop⟩ := List.mem_flatMap.mp hop
    exact checked_simulateRoute p _ _ _ hd (by simp) op hop

theorem checkedPlugins : CheckedPlugins DKWRoute.all true (plugins p) := by
  refine (((((checkedPlugins_init.add fun ops h => ?_).add fun ops h => ?_).add
    fun ops h => ?_).add fun ops h => ?_).add fun ops h => ?_).add fun ops h => ?_
  · exact (mild_dkwOccupancy p h).checked
  · cases h
    exact (mild_proxySignals p).checked
  · cases h
    exact (mild_proxyDetectors p).checked
  · cases h
    simp
  · cases h
    exact checked_dkwRoute p
  · cases h
    exact checked_populateAnyRouteSet

theorem checked_fixedPlugins (curved : Bool) :
    CheckedPlugins DKWRoute.all true (fixedPlugins p curved) := by
  refine (checkedPlugins p).add fun ops h => ?_
  cases h
  exact (mild_turnoutState (by cases curved <;> simp)).checked

theorem checked_movablePlugins (magnet : MagnetBase) :
    CheckedPlugins DKWRoute.all true (movablePlugins p magnet) := by
  refine ((checkedPlugins p).add fun ops h => ?_).add fun ops h => ?_
  · cases h
    exact (mild_turnoutState (by simp [copyState])).checked
  · cases h
    exact (mild_copyLocked _).checked

end DKW

end Pieces

/-! ## Runs -/

section Runs

variable {S R : Type} [DecidableEq S] [DecidableEq R]

/-- The variable of a hold. -/
def Hold.bit : Hold R → Bit S R
  | set r => .routeSet r
  | pending r => .routePending r

/-- At most one of `route_set_*` and `route_pending_*` is 1, and a pending one under the lock. -/
structure Layout.OneRoute (s : Layout (Bit S R)) : Prop where
  one : ∀ h h' : Hold R, s.bits h.bit = true → s.bits h'.bit = true → h = h'
  locked : ∀ r, s.bits (.routePending r) = true → s.bits .tmpRouteSettingInProgress = true

/-- The variable is one of the piece. -/
def Bit.Own : Bit S R → Prop
  | .interface (.other _) _ => False
  | .resetRoutes => False
  | .foreign _ => False
  | _ => True

/-- After the initial run, with all variables of the piece 0. -/
structure Layout.Initial (s : Layout (Bit S R)) : Prop where
  state : s.state = UInt8.ofNat stBase
  own : ∀ var : Bit S R, var.Own → s.bits var = false
  resetRoutes : s.bits .resetRoutes = false

/-- The configurations of the runs of the body that the plugins render. -/
def AutomataPlugin.Runs (plugins : AutomataPlugin S R) (s : Layout (Bit S R))
    (c : Interference.Config (Condition (Bit S R)) (Action (Bit S R) Empty) (Layout (Bit S R))) :
    Prop :=
  ∃ ops, plugins.runAll = some ops ∧
    Interference.Reaches Layout.semantics (ops.map Op.guarded) Surroundings (.idle s) c

/-- The piece never holds two routes, whatever the surroundings do in between. -/
def AutomataPlugin.NeverTwoRoutes (plugins : AutomataPlugin S R) : Prop :=
  ∀ s c, s.Initial → plugins.Runs s c → c.state.OneRoute

omit [DecidableEq S] [DecidableEq R] in
theorem Layout.Initial.settled {s : Layout (Bit S R)} (h : s.Initial) (routes : List R)
    (hasAny : Bool) : s.reservation.Settled routes hasAny := by
  have hfree : s.reservation.Free := by
    intro hold
    cases hold with
    | set r => exact h.own (.routeSet r) trivial
    | pending r => exact h.own (.routePending r) trivial
  constructor
  case toExclusive => exact hfree.exclusive
  case running =>
    have hstate : s.reservation.state = UInt8.ofNat stBase := h.state
    rw [hstate]
    decide
  case noReset => exact h.resetRoutes
  case own =>
    intro r hset
    rw [hfree] at hset
    cases hset
  case any =>
    intro _ r hset
    rw [hfree] at hset
    cases hset

omit [DecidableEq S] [DecidableEq R] in
theorem Layout.oneRoute_of_exclusive {s : Layout (Bit S R)} (h : s.reservation.Exclusive) :
    s.OneRoute := by
  have hbit : ∀ hold : Hold R, s.bits hold.bit = s.reservation.held hold := by
    intro hold
    cases hold <;> rfl
  constructor
  case one =>
    intro h1 h2 hheld1 hheld2
    exact h.one h1 h2 (hbit h1 ▸ hheld1) (hbit h2 ▸ hheld2)
  case locked => exact fun r hpending => h.locked r hpending

theorem CheckedPlugins.neverTwoRoutes {plugins : AutomataPlugin S R} {routes : List R}
    {hasAny : Bool} (h : CheckedPlugins routes hasAny plugins) : plugins.NeverTwoRoutes := by
  rintro s c hinitial ⟨ops, hops, hreached⟩
  refine Layout.oneRoute_of_exclusive (hreached.always
    (V := reservationView) (fun _ hb => hb.toExclusive) (fun op hop => ?_)
    (hinitial.settled routes hasAny))
  obtain ⟨op', hop', rfl⟩ := List.mem_map.mp hop
  exact h.runAll hops op' hop'

end Runs

/-- No straight track, turnout or double slip switch ever holds two routes. -/
theorem track_pieces_hold_one_route :
    (∀ p : StraightTrack, p.shortPlugins.NeverTwoRoutes ∧ p.longPlugins.NeverTwoRoutes) ∧
    (∀ p : StraightTrackWithDetector, p.plugins.NeverTwoRoutes) ∧
    (∀ p : MovableTurnout, p.plugins.NeverTwoRoutes) ∧
    (∀ p : FixedTurnout, p.plugins.NeverTwoRoutes) ∧
    ∀ p : DKW, (DKW.plugins p).NeverTwoRoutes ∧
      (∀ curved, (DKW.fixedPlugins p curved).NeverTwoRoutes) ∧
      ∀ magnet, (DKW.movablePlugins p magnet).NeverTwoRoutes :=
  ⟨fun p => ⟨p.checked_shortPlugins.neverTwoRoutes, p.checked_longPlugins.neverTwoRoutes⟩,
    fun p => p.checkedPlugins.neverTwoRoutes,
    fun p => p.checkedPlugins.neverTwoRoutes,
    fun p => p.checkedPlugins.neverTwoRoutes,
    fun p => ⟨(DKW.checkedPlugins p).neverTwoRoutes,
      fun curved => (DKW.checked_fixedPlugins p curved).neverTwoRoutes,
      fun magnet => (DKW.checked_movablePlugins p magnet).neverTwoRoutes⟩⟩

/-- A short track between two other pieces. -/
def shortTrack : StraightTrack where
  binding
    | .a => ⟨.other 0, some (.foreign 0), some (.foreign 1)⟩
    | .b => ⟨.other 1, some (.foreign 2), none⟩
  hasResetRoutes := false
  externalOccupancy := none

/-- A request from the piece at side a, and nothing else. -/
def requestAtA : Layout (Bit Side StraightRoute) where
  state := 1
  timer := 0
  aspect := 0
  bits var := var = .interface (.other 0) .outTrySetRoute
  values _ _ := 0

theorem requestAtA_initial : requestAtA.Initial where
  state := rfl
  own var h := by
    cases var with
    | interface i v =>
      cases i with
      | side s => simp [requestAtA]
      | other n => exact absurd h id
    | _ => simp [requestAtA]
  resetRoutes := by simp [requestAtA]

/-- The request becomes pending, and is the only one. -/
theorem shortTrack_holds_one_route : ∃ c, shortTrack.shortPlugins.Runs requestAtA c ∧
    c.state.bits (.routePending .ab) = true ∧ c.state.OneRoute := by
  obtain ⟨ops, hops⟩ : ∃ ops, shortTrack.shortPlugins.runAll = some ops := ⟨_, rfl⟩
  have hruns : shortTrack.shortPlugins.Runs requestAtA
      ((Interference.Config.next Layout.semantics (ops.map Op.guarded))^[60] (.idle requestAtA)) :=
    ⟨ops, hops, Interference.reaches_iterate _ _ _ _ _⟩
  refine ⟨_, hruns, ?_, (track_pieces_hold_one_route.1 shortTrack).1 _ _ requestAtA_initial hruns⟩
  cases hops
  decide

end OpenmrnCue.Automata
