import OpenmrnCue.Automata.LineSteps

/-! Runs of a line.  Each pending request has exactly one token, in whatever order the automata run
and whatever requests and answers come from outside; and where there is no train, a signal is green
only over straight tracks that are all reserved. -/

namespace OpenmrnCue.Automata

/-! ## Pieces -/

section Pieces

variable {l : Line} {i : ℤ}

theorem each_init : EachOperation (Passes l i) AutomataPlugin.init := by
  intro n ops hmem op hop
  cases List.mem_singleton.mp hmem
  rw [List.mem_singleton.mp hop]
  exact passes_stInit (by simp)

/-- The two calls of `SimulateRoute` of a straight track. -/
theorem passes_routes {t : Track Side StraightRoute} (ht : Bound t)
    {conflictAb conflictBa : List (Bit Side StraightRoute)} (hab : .routeSet .ba ∈ conflictAb)
    (hba : .routeSet .ab ∈ conflictBa) {first : PieceOp Side StraightRoute}
    (hfirst : .ifState stInit ∈ first.ifs) :
    ∀ op ∈ first :: simulateRoute t [] .a .b (.routePending .ab) [.routeSet .ab] conflictAb ++
      simulateRoute t [] .b .a (.routePending .ba) [.routeSet .ba] conflictBa, Passes l i op := by
  intro op hop
  rcases List.mem_append.mp hop with hop | hop
  · rcases List.mem_cons.mp hop with rfl | hop
    · exact passes_stInit hfirst
    · refine passes_simulateRoute ht [] .ab (fun r' hr => ?_) op hop
      cases r' with
      | ab => exact absurd rfl hr
      | ba => exact hab
  · refine passes_simulateRoute ht [] .ba (fun r' hr => ?_) op hop
    cases r' with
    | ab => exact hba
    | ba => exact absurd rfl hr

/-- A straight track without routes, bound in the line. -/
theorem each_plugins {p : StraightTrack} (hdetects : l.Detects p.toTrack)
    (hexternal : ∀ var, p.externalOccupancy = some var → l.Vacant var) :
    EachOperation (Passes l i) p.plugins := by
  refine (each_init.add fun ops h => ?_).add fun ops h => ?_
  · exact passes_simulateAllOccupancy hdetects hexternal h
  · cases h
    intro op hop
    rcases List.mem_append.mp hop with hop | hop
    · exact passes_quiet (quiet_copySignals _ _ op hop)
    · exact passes_quiet (quiet_copySignals _ _ op hop)

theorem each_shortPlugins {p : StraightTrack} (ht : Bound p.toTrack)
    (hdetects : l.Detects p.toTrack)
    (hexternal : ∀ var, p.externalOccupancy = some var → l.Vacant var) :
    EachOperation (Passes l i) p.shortPlugins :=
  (each_plugins hdetects hexternal).add fun _ h =>
    Option.some.inj h ▸ passes_routes ht (by simp) (by simp) (by simp)

theorem each_detectorPlugins {p : StraightTrackWithDetector} (ht : Bound p.toTrack)
    (hdetects : l.Detects p.toTrack) (hexternal : p.externalOccupancy = none)
    (hdetector : l.Vacant p.detector) : EachOperation (Passes l i) p.plugins := by
  refine (((each_plugins hdetects (by simp [hexternal])).remove 20).add fun ops h => ?_).add
    fun ops h => ?_
  · cases h
    intro op hop
    simp only [StraightTrackWithDetector.detectorOccupancy, List.mem_cons, List.not_mem_nil,
      or_false] at hop
    rcases hop with rfl | rfl
    · refine Line.NeedsTrain.passes ⟨?_, p.detector, hdetector, by simp⟩
      simp [Action.Clears]
    · refine Line.NeedsTrain.passes ⟨?_, .simulatedOccupancy, trivial, by simp⟩
      simp [Action.Clears]
  · cases h
    exact passes_routes ht (by simp) (by simp) (by simp)

/-- A signal piece at an end of the line. -/
theorem each_signalPlugins {p : SignalPiece} (ht : Bound p.toTrack) (hdetects : l.Detects p.toTrack)
    (hexternal : ∀ var, p.externalOccupancy = some var → l.Vacant var)
    (hend : i = 0 ∨ i = l.last) (hsignal : ∀ var, p.signal = some var → var.Quiet)
    {requestGreen : Nat} (hrequest : p.requestGreen = .foreign requestGreen) :
    EachOperation (Passes l i) p.plugins := by
  refine ((((((each_shortPlugins ht hdetects hexternal).remove 20).add fun ops h => ?_).remove
    23).add fun ops h => ?_).remove 30).add fun ops h => ?_
  · unfold SignalPiece.signalOccupancy at h
    split at h
    · obtain ⟨prevDetector, hprev, h⟩ := Option.bind_eq_some_iff.mp h
      cases h
      intro op hop
      simp only [List.mem_cons, List.not_mem_nil, or_false] at hop
      rcases hop with rfl | rfl
      · refine Line.NeedsTrain.passes ⟨?_, prevDetector, (hdetects .a).1 _ hprev, by simp⟩
        simp [Action.Clears]
      · refine Line.NeedsTrain.passes ⟨?_, .simulatedOccupancy, trivial, by simp⟩
        intro a ha
        rcases List.mem_append.mp ha with ha | ha
        · exact .inl (quiet_maybeActReg hsignal false a ha)
        · simp only [List.mem_cons, List.not_mem_nil, or_false] at ha
          rcases ha with rfl | rfl | rfl <;> exact .inr trivial
    · exact passes_simulateAllOccupancy hdetects hexternal h
  · cases h
    intro op hop
    rcases List.mem_append.mp hop with hop | hop
    · exact passes_quiet (quiet_copySignals _ _ op hop)
    · simp only [List.mem_cons, List.not_mem_nil, or_false] at hop
      rcases hop with rfl | rfl | rfl | rfl <;>
        exact passes_quiet (by simp [Action.Quiet, Bit.Quiet])
  · cases h
    intro op hop
    simp only [SignalPiece.signalRoute, List.mem_append, List.mem_singleton] at hop
    rcases hop with (((rfl | hop) | hop) | hop) | hop
    · exact passes_stInit (by simp)
    · split at hop
      · rw [List.mem_singleton.mp hop]
        exact passes_stInit (by simp)
      · cases hop
    · refine passes_simulateRoute ht [] .ba (fun r' hr => ?_) op hop
      cases r' with
      | ab => simp
      | ba => exact absurd rfl hr
    · rw [hrequest] at hop
      exact passes_simulateSignalFwdRoute ht hend hsignal requestGreen _ op hop
    · split at hop
      · next signal hsome =>
        have hquiet := hsignal signal hsome
        simp only [List.mem_cons, List.not_mem_nil, or_false] at hop
        rcases hop with rfl | rfl | rfl <;>
          exact passes_quiet (by simpa [Action.Quiet] using hquiet)
      · cases hop

end Pieces

/-! ### Detectors of the line -/

section Lookups

variable {l : Line}

/-- The lookups return detectors of the line. -/
def Line.Finds (l : Line) (x : Lookup) : Prop :=
  (∀ d, x.next = some d → d ∈ l.detectors) ∧ ∀ d, x.far = some d → d ∈ l.detectors

theorem Line.mem_detectors {p : LinePiece} (hp : p ∈ l.pieces) {d : Nat} (hd : d ∈ p.detectors) :
    d ∈ l.detectors := by
  have hmem : d ∈ l.pieces.flatMap (·.detectors) := List.mem_flatMap.mpr ⟨p, hp, hd⟩
  simp [detectors, hmem]

theorem Line.Finds.lookup {x : Lookup} (h : l.Finds x) {p : LinePiece} (hp : p ∈ l.pieces)
    (side : Side) : l.Finds (p.lookup side x) := by
  cases p with
  | straight p =>
    cases p with
    | short external => exact h
    | long external => exact ⟨h.1, h.1⟩
    | withDetector detector =>
      refine ⟨fun d hd => ?_, h.2⟩
      obtain rfl := Option.some.inj hd
      exact Line.mem_detectors hp (by simp [LinePiece.detectors])
  | signal v =>
    refine ⟨h.1, fun d hd => ?_⟩
    simp only [LinePiece.lookup] at hd
    split at hd
    · cases hd
    · exact h.2 d hd

theorem Line.finds_before (l : Line) : l.Finds l.before :=
  ⟨fun d hd => by simp [detectors, hd], fun d hd => by simp [detectors, hd]⟩

theorem Line.finds_after (l : Line) : l.Finds l.after :=
  ⟨fun d hd => by simp [detectors, hd], fun d hd => by simp [detectors, hd]⟩

theorem Line.finds_lookupBehindA (l : Line) (i : Nat) : l.Finds (l.lookupBehindA i) := by
  have hfold : ∀ ps : List LinePiece, (∀ p ∈ ps, p ∈ l.pieces) → ∀ x, l.Finds x →
      l.Finds (ps.foldl (fun behind p => p.lookup .b behind) x) := by
    intro ps
    induction ps with
    | nil => exact fun _ x hx => hx
    | cons p ps ih =>
      exact fun hps x hx => ih (fun p' hp' => hps p' (List.mem_cons_of_mem _ hp')) _
        (hx.lookup (hps p List.mem_cons_self) .b)
  exact hfold _ (fun p hp => List.mem_of_mem_take hp) _ l.finds_before

theorem Line.finds_lookupBehindB (l : Line) (i : Nat) : l.Finds (l.lookupBehindB i) := by
  have hfold : ∀ ps : List LinePiece, (∀ p ∈ ps, p ∈ l.pieces) →
      l.Finds (ps.foldr (fun p behind => p.lookup .a behind) l.after) := by
    intro ps
    induction ps with
    | nil => exact fun _ => l.finds_after
    | cons p ps ih =>
      exact fun hps => (ih fun p' hp' => hps p' (List.mem_cons_of_mem _ hp')).lookup
        (hps p List.mem_cons_self) .a
  exact hfold _ fun p hp => List.mem_of_mem_drop hp

theorem Line.bound_track (l : Line) (i : Nat) : Bound (l.track i) := by
  intro side
  cases side <;> rfl

theorem Line.detects_track (l : Line) (i : Nat) : l.Detects (l.track i) := by
  intro side
  have hfinds : ∀ x : Lookup, l.Finds x →
      (∀ var, (x.next.map .foreign : Option (Bit Side StraightRoute)) = some var → l.Vacant var) ∧
      ∀ var, (x.far.map .foreign : Option (Bit Side StraightRoute)) = some var → l.Vacant var := by
    rintro x ⟨hnext, hfar⟩
    refine ⟨fun var hvar => ?_, fun var hvar => ?_⟩
    · obtain ⟨d, hd, rfl⟩ := Option.map_eq_some_iff.mp hvar
      exact hnext d hd
    · obtain ⟨d, hd, rfl⟩ := Option.map_eq_some_iff.mp hvar
      exact hfar d hd
  cases side with
  | a => exact hfinds _ (l.finds_lookupBehindA i)
  | b => exact hfinds _ (l.finds_lookupBehindB i)

/-- A signal is at an end of the line, and between the ends there are straight tracks. -/
theorem Line.pieces_cases {i : Nat} {p : LinePiece} (h : l.pieces[i]? = some p) :
    ((i = 0 ∨ i = l.last) ∧ ∃ v, p = .signal v) ∨
      (1 ≤ i ∧ i < l.last ∧ ∃ straight, p = .straight straight) := by
  cases i with
  | zero => exact .inl ⟨.inl rfl, l.signalA, (Option.some.inj h).symm⟩
  | succ i =>
    simp only [pieces, List.getElem?_cons_succ] at h
    by_cases hi : i < l.straight.length
    · rw [List.getElem?_append_left (by simpa using hi), List.getElem?_map] at h
      obtain ⟨straight, -, rfl⟩ := Option.map_eq_some_iff.mp h
      exact .inr ⟨by omega, by simp only [last]; omega, straight, rfl⟩
    · rw [List.getElem?_append_right (by simpa using hi)] at h
      obtain ⟨hlt, heq⟩ := List.getElem?_eq_some_iff.mp h
      simp only [List.length_map, List.length_singleton] at hlt
      refine .inl ⟨.inr (by simp only [last]; omega), l.signalB, ?_⟩
      rw [← heq]
      simp

/-- The operations of a piece pass requests on. -/
theorem Line.each_passes {i : Nat} {p : LinePiece} (h : l.pieces[i]? = some p) :
    EachOperation (Passes l i) (p.plugins (l.track i)) := by
  have hbound := l.bound_track i
  have hdetects := l.detects_track i
  have hmem : p ∈ l.pieces := List.mem_of_getElem? h
  have hexternal : ∀ external : Option Nat, external.toList = p.detectors → ∀ var,
      (external.map .foreign : Option (Bit Side StraightRoute)) = some var → l.Vacant var := by
    intro external heq var hvar
    obtain ⟨d, hd, rfl⟩ := Option.map_eq_some_iff.mp hvar
    exact Line.mem_detectors hmem (heq ▸ by simp [hd])
  rcases Line.pieces_cases h with ⟨hend, v, rfl⟩ | ⟨-, -, straight, rfl⟩
  · refine each_signalPlugins hbound hdetects
      (hexternal _ rfl) (by omega) (fun var hvar => ?_) rfl
    obtain ⟨n, -, rfl⟩ := Option.map_eq_some_iff.mp hvar
    trivial
  · cases straight with
    | short external => exact each_shortPlugins hbound hdetects (hexternal _ rfl)
    | long external => exact each_shortPlugins hbound hdetects (hexternal _ rfl)
    | withDetector detector =>
      exact each_detectorPlugins hbound hdetects rfl
        (Line.mem_detectors hmem (by simp [LinePiece.detectors]))

/-- The operations of a straight track keep its reservation. -/
theorem StraightPiece.checkedPlugins (p : StraightPiece) (t : Track Side StraightRoute) :
    CheckedPlugins straightRoutes false ((LinePiece.straight p).plugins t) := by
  cases p with
  | short external => exact StraightTrack.checked_shortPlugins _
  | long external => exact StraightTrack.checked_longPlugins _
  | withDetector detector => exact StraightTrackWithDetector.checkedPlugins _

end Lookups

/-! ## Invariants -/

/-- What holds between the operations of a line: the automata are initialised, the straight tracks
are settled, and each link behind a straight track has one token for each pending request. -/
structure Line.Settled (l : Line) (s : LineState) : Prop where
  running : ∀ i, s.Running i
  settled : ∀ i : ℤ, 1 ≤ i ∧ i < l.last → (s.reservation i).Settled straightRoutes false
  oneToken : ∀ r (i : ℤ), 1 ≤ i ∧ i < l.last → (s.tokens r).OneToken r.ahead i

/-- What holds moreover where there is no train. -/
structure Line.Vacated (l : Line) (s : LineState) : Prop extends l.Settled s where
  empty : ∀ i, s.bits (.piece i .simulatedOccupancy) = false
  chained : ∀ r, (s.tokens r).Chained r.ahead (l.roles r)
  backed : ∀ r (i : ℤ), 1 ≤ i ∧ i < l.last → ¬ (l.roles r).source (r.ahead i) →
    (s.tokens r).Backed r.ahead i

section Operations

variable {l : Line} {s : LineState} {i : ℤ} {op : PieceOp Side StraightRoute}

/-- An operation is carried out, or it leaves everything as it is. -/
theorem exec_lineOp (s : LineState) (i : ℤ) (op : PieceOp Side StraightRoute) :
    s.exec i (lineOp i op) = s ∨
      (s.Fires i op.ifs ∧ s.exec i (lineOp i op) = s.performs i op.acts) := by
  unfold LineState.exec
  split
  · next hfires =>
    refine .inr ⟨fun c hc => ?_, rfl⟩
    exact List.all_eq_true.mp hfires _ (List.mem_map_of_mem hc)
  · exact .inl rfl

theorem Line.Settled.exec (h : l.Settled s) (hpasses : Passes l i op)
    (hchecked : 1 ≤ i ∧ i < l.last → Checked straightRoutes false op) :
    l.Settled (s.exec i (lineOp i op)) := by
  rcases exec_lineOp s i op with heq | ⟨hfires, heq⟩
  · rw [heq]
    exact h
  · rw [heq]
    have hcarries := hpasses s (h.running i) (h.settled i) hfires
    constructor
    case running =>
      intro j
      obtain ⟨hstate, hreset⟩ := registers_performs s i j hcarries.plain
      exact ⟨hstate ▸ (h.running j).1, hreset ▸ (h.running j).2⟩
    case settled =>
      intro j hj
      by_cases hji : j = i
      · subst hji
        rw [reservation_performs]
        exact (hchecked hj _ (h.settled j hj) fun c hc => hfires.need hc).last
      · rw [reservation_performs_other s hji hcarries.plain]
        exact h.settled j hj
    case oneToken =>
      intro r j hj
      rw [tokens_performs]
      exact (h.oneToken r j hj).step r.ahead_ne (show (l.roles r).relay j from hj)
        (hcarries.step r)

theorem Line.Vacated.exec (h : l.Vacated s) (hfree : l.DetectorsFree s) (hpasses : Passes l i op)
    (hchecked : 1 ≤ i ∧ i < l.last → Checked straightRoutes false op) :
    l.Vacated (s.exec i (lineOp i op)) := by
  have hsettled := h.toSettled.exec hpasses hchecked
  rcases exec_lineOp s i op with heq | ⟨hfires, heq⟩
  · rw [heq]
    exact h
  · rw [heq] at hsettled ⊢
    have hcarries := hpasses s (h.running i) (h.settled i) hfires
    have hunoccupied : l.Unoccupied i s := ⟨hfree, h.empty i⟩
    have hstep : ∀ r, Tokens.Step r.ahead (l.roles r) False (s.tokens r) i
        (tokenWrites i r op.acts) := by
      intro r
      have hstep := hcarries.step r
      rwa [eq_false (not_not_intro hunoccupied)] at hstep
    refine ⟨hsettled, fun j => ?_, fun r => ?_, fun r j hj hs => ?_⟩
    · exact simulatedOccupancy_performs s i j (hcarries.vacant hunoccupied) (h.empty j)
    · rw [tokens_performs]
      exact (h.chained r).step (hstep r)
    · rw [tokens_performs]
      exact (h.backed r j hj hs).step r.ahead_ne (h.oneToken r j hj) hj hs (hstep r)

end Operations

section Runs

variable {l : Line} {s s' : LineState}

/-- What each operation of a body keeps where a condition holds, its run keeps where the condition
holds throughout. -/
theorem Line.run_keeps {ok I : LineState → Prop} {i : Nat} {ops : List (Op LineBit Empty)}
    (hbody : l.body i = some ops)
    (hop : ∀ (s : LineState) (op : PieceOp Side StraightRoute), Passes l i op →
      (1 ≤ (i : ℤ) ∧ (i : ℤ) < l.last → Checked straightRoutes false op) → ok s → I s →
      I (s.exec i (lineOp i op)))
    (hok : ∀ past future, ops = past ++ future → ok (s.run i past)) (hs : I s) :
    I (s.run i ops) := by
  obtain ⟨piece, rendered, hpiece, hrendered, rfl⟩ := Line.body_eq_some hbody
  have hpasses := (Line.each_passes hpiece).runAll hrendered
  have hchecked : ∀ op ∈ rendered, 1 ≤ (i : ℤ) ∧ (i : ℤ) < l.last →
      Checked straightRoutes false op := by
    intro op hmem hrelay
    rcases Line.pieces_cases hpiece with ⟨hend, -⟩ | ⟨-, -, straight, rfl⟩
    · omega
    · exact (straight.checkedPlugins _).runAll hrendered op hmem
  clear hpiece hrendered hbody
  induction rendered generalizing s with
  | nil => exact hs
  | cons op rendered ih =>
    refine ih ?_ (fun past future heq => ?_)
      (fun op' hop' => hpasses op' (List.mem_cons_of_mem _ hop'))
      (fun op' hop' => hchecked op' (List.mem_cons_of_mem _ hop'))
    · exact hop s op (hpasses op List.mem_cons_self) (hchecked op List.mem_cons_self)
        (hok [] _ rfl) hs
    · exact hok (lineOp i op :: past) future (congrArg (lineOp i op :: ·) heq)

/-- The variables of a link behind a straight track are in the line. -/
theorem Line.inner_ahead {i : ℤ} (hi : 1 ≤ i ∧ i < l.last) (r : StraightRoute)
    (v : InterfaceVariable) :
    l.Inner (.interface (i, r.exit) v) ∧ l.Inner (.interface (i, r.entry) v) ∧
      l.Inner (.interface (r.ahead i, r.entry) v) := by
  cases r <;> simp [Inner, StraightRoute.exit, StraightRoute.entry, StraightRoute.ahead] <;> omega

theorem Line.Outside.reservation (h : l.Outside s s') (i : ℤ) :
    s'.reservation i = s.reservation i := by
  unfold LineState.reservation
  rw [h.state, h.inner .resetRoutes trivial, h.inner (.piece i .anyRouteSet) trivial,
    h.inner (.piece i .tmpRouteSettingInProgress) trivial]
  congr 1
  funext hold
  cases hold with
  | set r => exact h.inner (.piece i (.routeSet r)) trivial
  | pending r => exact h.inner (.piece i (.routePending r)) trivial

theorem Line.Settled.outside (h : l.Settled s) (houtside : l.Outside s s') : l.Settled s' where
  running i := by
    obtain ⟨hstate, hreset⟩ := h.running i
    exact ⟨houtside.state ▸ hstate, (houtside.inner .resetRoutes trivial).trans hreset⟩
  settled i hi := by
    rw [houtside.reservation]
    exact h.settled i hi
  oneToken r i hi := by
    refine (h.oneToken r i hi).congr ?_ ?_ ?_ ?_ ?_
    · exact houtside.inner _ (Line.inner_ahead hi r _).1
    · exact houtside.inner (.piece i (.routePending r)) trivial
    · exact houtside.inner (.piece (r.ahead i) (.routePending r)) trivial
    · exact houtside.inner _ (Line.inner_ahead hi r _).2.2
    · exact houtside.inner _ (Line.inner_ahead hi r _).2.2

theorem Line.Vacated.outside (h : l.Vacated s) (houtside : l.Outside s s') : l.Vacated s' where
  toSettled := h.toSettled.outside houtside
  empty i := (houtside.inner (.piece i .simulatedOccupancy) trivial).trans (h.empty i)
  chained r := by
    have hgranted : ∀ i, (s'.tokens r).granted i = (s.tokens r).granted i :=
      fun i => houtside.inner (.piece i (.routeSet r)) trivial
    refine ⟨fun i hi hsuccess => ?_, fun i hi hset => ?_⟩
    · have hinner : (s'.tokens r).success i = (s.tokens r).success i :=
        houtside.inner _ (Line.inner_ahead hi r _).2.1
      rw [hgranted]
      exact (h.chained r).answered i hi (hinner ▸ hsuccess)
    · rw [hgranted] at hset ⊢
      exact (h.chained r).chain i hi hset
  backed r i hi hs := by
    intro hset
    have hgranted : ∀ i, (s'.tokens r).granted i = (s.tokens r).granted i :=
      fun i => houtside.inner (.piece i (.routeSet r)) trivial
    have hpending : (s'.tokens r).pending i = (s.tokens r).pending i :=
      houtside.inner (.piece i (.routePending r)) trivial
    have hsuccess : (s'.tokens r).success (r.ahead i) = (s.tokens r).success (r.ahead i) :=
      houtside.inner _ (Line.inner_ahead hi r _).2.2
    rw [hgranted, hpending, hsuccess]
    exact h.backed r i hi hs (hgranted _ ▸ hset)

theorem Line.Initial.vacated (h : l.Initial s) : l.Vacated s := by
  have hlast : ∀ i : ℤ, 1 ≤ i ∧ i < l.last → ∀ r : StraightRoute,
      0 ≤ r.ahead i ∧ r.ahead i ≤ l.last := by
    intro i hi r
    cases r <;> simp [StraightRoute.ahead] <;> omega
  have hgranted : ∀ r i, (s.tokens r).granted i = false := fun r i => h.pieces i (.routeSet r)
  constructor
  case toSettled =>
    constructor
    case running =>
      intro i
      refine ⟨?_, h.resetRoutes⟩
      rw [h.state]
      decide
    case settled =>
      intro i _
      have hfree : (s.reservation i).Free := by
        intro hold
        cases hold with
        | set r => exact h.pieces i (.routeSet r)
        | pending r => exact h.pieces i (.routePending r)
      constructor
      case toExclusive => exact hfree.exclusive
      case running =>
        have hstate : (s.reservation i).state = UInt8.ofNat stBase := h.state i
        rw [hstate]
        decide
      case noReset => exact h.resetRoutes
      case own =>
        intro r hset
        rw [hfree] at hset
        cases hset
      case any => exact fun hany => absurd hany (by decide)
    case oneToken =>
      intro r i hi
      obtain ⟨hfirst, hbound⟩ := hlast i hi r
      have hpending : ∀ i, (s.tokens r).pending i = false := fun i => h.pieces i (.routePending r)
      have hrequest : (s.tokens r).request i = false :=
        h.interfaces i r.exit .outTrySetRoute (by omega) (by omega) (by decide) (by decide)
      have hsuccess : (s.tokens r).success (r.ahead i) = false :=
        h.interfaces _ r.entry .inRouteSetSuccess hfirst hbound (by decide) (by decide)
      have hfailure : (s.tokens r).failure (r.ahead i) = false :=
        h.interfaces _ r.entry .inRouteSetFailure hfirst hbound (by decide) (by decide)
      simp [Tokens.OneToken, Tokens.places, hpending, hrequest, hsuccess, hfailure]
  case empty => exact fun i => h.pieces i _
  case chained =>
    intro r
    refine ⟨fun i hi hsuccess => ?_, fun i _ hset => ?_⟩
    · obtain ⟨hfirst, hlast⟩ := hi
      have hnone : (s.tokens r).success i = false :=
        h.interfaces i r.entry .inRouteSetSuccess (by omega) (by omega) (by decide) (by decide)
      rw [hnone] at hsuccess
      cases hsuccess
    · rw [hgranted] at hset
      cases hset
  case backed =>
    intro r i _ _ hset
    rw [hgranted] at hset
    cases hset

theorem Line.Reachable.settled {ok : LineState → Prop} (h : l.Reachable ok s) : l.Settled s := by
  induction h with
  | initial h _ => exact h.vacated.toSettled
  | run _ hbody hok ih =>
    exact Line.run_keeps hbody (fun s op hpasses hchecked _ hs => hs.exec hpasses hchecked) hok ih
  | outside _ houtside _ ih => exact ih.outside houtside

theorem Line.Reachable.vacated (h : l.Reachable l.DetectorsFree s) : l.Vacated s := by
  induction h with
  | initial h _ => exact h.vacated
  | run _ hbody hok ih =>
    exact Line.run_keeps hbody
      (fun s op hpasses hchecked hfree hs => hs.exec hfree hpasses hchecked) hok ih
  | outside _ houtside _ ih => exact ih.outside houtside

end Runs

/-! ## Requests and signals -/

/-- A request of a straight track that is pending is at exactly one place: it has been passed to the
next piece, it is pending there, or it has been answered there. -/
theorem pending_request_has_one_token (l : Line) {s : LineState}
    (h : l.Reachable (fun _ => True) s) {i : ℤ} (hfirst : 1 ≤ i) (hlast : i < l.last) :
    (s.bits (.piece i (.routePending .ab)) = true →
      [s.bits (.interface (i, .b) .outTrySetRoute),
        s.bits (.piece (i + 1) (.routePending .ab)),
        s.bits (.interface (i + 1, .a) .inRouteSetSuccess),
        s.bits (.interface (i + 1, .a) .inRouteSetFailure)].count true = 1) ∧
    (s.bits (.piece i (.routePending .ba)) = true →
      [s.bits (.interface (i, .a) .outTrySetRoute),
        s.bits (.piece (i - 1) (.routePending .ba)),
        s.bits (.interface (i - 1, .b) .inRouteSetSuccess),
        s.bits (.interface (i - 1, .b) .inRouteSetFailure)].count true = 1) := by
  have htoken : ∀ r, (s.tokens r).pending i = true →
      ((s.tokens r).places r.ahead i).count true = 1 := by
    intro r hpending
    have hone : ((s.tokens r).places r.ahead i).count true = _ :=
      h.settled.oneToken r i ⟨hfirst, hlast⟩
    rwa [if_pos hpending] at hone
  exact ⟨htoken .ab, htoken .ba⟩

/-- With no train on the line, signal A is green only where all straight tracks are reserved for it,
and neither A nor a straight track is reserved in both directions. -/
theorem green_line_is_reserved (l : Line) (hstraight : l.straight ≠ []) {s : LineState}
    (h : l.Reachable l.DetectorsFree s) :
    (s.bits (.piece 0 (.routeSet .ab)) = true →
      ∀ i : ℤ, 1 ≤ i → i < l.last → s.bits (.piece i (.routeSet .ab)) = true) ∧
    ∀ i : ℤ, 0 ≤ i → i < l.last → ¬ (s.bits (.piece i (.routeSet .ab)) = true ∧
      s.bits (.piece i (.routeSet .ba)) = true) := by
  have hline := h.vacated
  have hlong : 1 < l.last := by
    have := List.length_pos_of_ne_nil hstraight
    simp only [Line.last]
    omega
  have hchain : s.bits (.piece 0 (.routeSet .ab)) = true → ∀ n : Nat, n < l.last →
      s.bits (.piece n (.routeSet .ab)) = true := by
    intro hset n
    induction n with
    | zero => exact fun _ => hset
    | succ n ih =>
      intro hn
      have hrelay : (l.roles .ab).relay (StraightRoute.ahead .ab n) := by
        show 1 ≤ (n : ℤ) + 1 ∧ (n : ℤ) + 1 < l.last
        omega
      exact (hline.chained .ab).chain n hrelay (ih (by omega))
  -- A straight track is reserved in one direction.
  have hone : ∀ i : ℤ, 1 ≤ i → i < l.last → s.bits (.piece i (.routeSet .ab)) = true →
      s.bits (.piece i (.routeSet .ba)) = false ∧
        s.bits (.piece i (.routePending .ba)) = false := by
    intro i hfirst hlast hab
    have hexclusive := (hline.settled i ⟨hfirst, hlast⟩).toExclusive
    refine ⟨?_, ?_⟩
    · by_contra hba
      have heq := hexclusive.one (.set .ab) (.set .ba) hab (Bool.eq_true_of_not_eq_false hba)
      cases heq
    · by_contra hba
      have heq := hexclusive.one (.set .ab) (.pending .ba) hab (Bool.eq_true_of_not_eq_false hba)
      cases heq
  refine ⟨fun hset i hfirst hlast => ?_, fun i hfirst hlast hboth => ?_⟩
  · obtain ⟨n, rfl⟩ := Int.eq_ofNat_of_zero_le (show 0 ≤ i by omega)
    exact hchain hset n (by omega)
  · obtain ⟨hab, hba⟩ := hboth
    by_cases hi : i = 0
    · subst hi
      -- Behind A, the first straight track is reserved against the route, or about to be.
      obtain ⟨hset, hpending⟩ := hone 1 le_rfl (by omega) (hchain hab 1 hlong)
      have hbacked := hline.backed .ba 1 ⟨le_rfl, by omega⟩ (fun hsource => by cases hsource.1) hba
      rcases hbacked with hheld | ⟨hheld, -⟩
      · rw [show (s.tokens .ba).granted 1 = false from hset] at hheld
        cases hheld
      · rw [show (s.tokens .ba).pending 1 = false from hpending] at hheld
        cases hheld
    · rw [(hone i (by omega) hlast hab).1] at hba
      cases hba

/-! ### A short line -/

/-- The pieces run in this order.  A piece whose automaton cannot be rendered does not run. -/
def Line.runAll (l : Line) (s : LineState) (order : List Nat) : LineState :=
  order.foldl (fun s (i : Nat) => s.run i ((l.body i).getD [])) s

theorem Line.Reachable.runAll {l : Line} {ok : LineState → Prop}
    (hok : ∀ i ops past future, l.body i = some ops → ops = past ++ future → ∀ s, ok s →
      ok (s.run i past)) (order : List Nat) :
    ∀ s, ok s → l.Reachable ok s → l.Reachable ok (l.runAll s order) := by
  induction order with
  | nil => exact fun s _ h => h
  | cons i order ih =>
    intro s hs h
    cases hbody : l.body i with
    | none =>
      have hsame : l.runAll s (i :: order) = l.runAll s order := by
        simp [Line.runAll, hbody, LineState.run]
      rw [hsame]
      exact ih s hs h
    | some ops =>
      have hnext : l.runAll s (i :: order) = l.runAll (s.run i ops) order := by
        simp [Line.runAll, hbody]
      rw [hnext]
      exact ih _ (hok i ops ops [] hbody (by simp) s hs)
        (.run h hbody fun past future heq => hok i ops past future hbody heq s hs)

/-- A short track between two signals. -/
def shortLine : Line where
  signalA := ⟨0, none, 1, none⟩
  straight := [.short none]
  signalB := ⟨2, none, 3, none⟩
  before := ⟨some 4, none⟩
  after := ⟨some 5, none⟩
  hasResetRoutes := false

/-- Signal A is requested to be green. -/
def greenRequested : LineState where
  state _ := 1
  timer _ := 0
  aspect _ := 0
  bits var := var = .foreign 0
  values _ _ := 0

theorem greenRequested_initial : shortLine.Initial greenRequested where
  state _ := rfl
  pieces _ _ := rfl
  interfaces _ _ _ _ _ _ _ := rfl
  resetRoutes := rfl

/-- The request of A becomes pending at the short track. -/
theorem shortLine_has_one_token :
    (shortLine.runAll greenRequested [0, 1]).bits (.piece 1 (.routePending .ab)) = true ∧
    [(shortLine.runAll greenRequested [0, 1]).bits (.interface (1, .b) .outTrySetRoute),
      (shortLine.runAll greenRequested [0, 1]).bits (.piece (1 + 1) (.routePending .ab)),
      (shortLine.runAll greenRequested [0, 1]).bits (.interface (1 + 1, .a) .inRouteSetSuccess),
      (shortLine.runAll greenRequested [0, 1]).bits
        (.interface (1 + 1, .a) .inRouteSetFailure)].count true = 1 := by
  have hpending :
      (shortLine.runAll greenRequested [0, 1]).bits (.piece 1 (.routePending .ab)) = true := by
    set_option maxRecDepth 8000 in
    decide
  have hreachable : shortLine.Reachable (fun _ => True) (shortLine.runAll greenRequested [0, 1]) :=
    Line.Reachable.runAll (fun _ _ _ _ _ _ _ _ => trivial) [0, 1] greenRequested trivial
      (.initial greenRequested_initial trivial)
  exact ⟨hpending, (pending_request_has_one_token shortLine hreachable le_rfl (by decide)).1
    hpending⟩

/-- Operations that write no detector leave the line free. -/
theorem Line.DetectorsFree.run {l : Line} {ops : List (Op LineBit Empty)}
    (hops : ∀ op ∈ ops, ∀ a ∈ op.acts, ∀ d ∈ l.detectors, a ≠ .actReg1 (.foreign d)) (i : ℤ)
    {s : LineState} (hs : l.DetectorsFree s) : l.DetectorsFree (s.run i ops) := by
  have hperform : ∀ (a : Action LineBit Empty) (s : LineState),
      (∀ d ∈ l.detectors, a ≠ .actReg1 (.foreign d)) → l.DetectorsFree s →
      l.DetectorsFree (s.perform i a) := by
    intro a s ha hs d hd
    cases a with
    | actReg0 var =>
      have heq : (s.perform i (.actReg0 var)).bits = Function.update s.bits var false := rfl
      rw [heq]
      by_cases hvar : var = .foreign d
      · simp [hvar]
      · rw [Function.update_of_ne (Ne.symm hvar)]
        exact hs d hd
    | actReg1 var =>
      have heq : (s.perform i (.actReg1 var)).bits = Function.update s.bits var true := rfl
      rw [heq, Function.update_of_ne]
      · exact hs d hd
      · rintro rfl
        exact ha d hd rfl
    | _ => exact hs d hd
  have hperforms : ∀ (acts : List (Action LineBit Empty)) (s : LineState),
      (∀ a ∈ acts, ∀ d ∈ l.detectors, a ≠ .actReg1 (.foreign d)) → l.DetectorsFree s →
      l.DetectorsFree (acts.foldl (fun s a => s.perform i a) s) := by
    intro acts
    induction acts with
    | nil => exact fun s _ hs => hs
    | cons a acts ih =>
      exact fun s hacts hs => ih (s.perform i a)
        (fun a' ha' => hacts a' (List.mem_cons_of_mem _ ha'))
        (hperform a s (hacts a List.mem_cons_self) hs)
  induction ops generalizing s with
  | nil => exact hs
  | cons op ops ih =>
    refine ih (fun op' hop' => hops op' (List.mem_cons_of_mem _ hop')) ?_
    show l.DetectorsFree (s.exec i op)
    unfold LineState.exec
    split
    · exact hperforms op.acts s (hops op List.mem_cons_self) hs
    · exact hs

/-- The pieces of the short line write no detector. -/
theorem shortLine_detectors (i : Nat) (ops : List (Op LineBit Empty))
    (h : shortLine.body i = some ops) :
    ∀ op ∈ ops, ∀ a ∈ op.acts, ∀ d ∈ shortLine.detectors, a ≠ .actReg1 (.foreign d) := by
  match i with
  | 0 => cases h; decide
  | 1 => cases h; decide
  | 2 => cases h; decide
  | i + 3 => cases h

/-- Its answer comes back, and A gets green over the short track. -/
theorem shortLine_is_reserved :
    (shortLine.runAll greenRequested [0, 1, 2, 1, 0]).bits (.piece 0 (.routeSet .ab)) = true ∧
    (shortLine.runAll greenRequested [0, 1, 2, 1, 0]).bits (.piece 1 (.routeSet .ab)) = true := by
  have hset : (shortLine.runAll greenRequested [0, 1, 2, 1, 0]).bits (.piece 0 (.routeSet .ab)) =
      true := by
    set_option maxRecDepth 8000 in
    decide
  have hfree : shortLine.DetectorsFree greenRequested := by
    unfold Line.DetectorsFree
    decide
  have hreachable : shortLine.Reachable shortLine.DetectorsFree
      (shortLine.runAll greenRequested [0, 1, 2, 1, 0]) := by
    refine Line.Reachable.runAll (fun i ops past future hbody heq s hs => ?_) [0, 1, 2, 1, 0]
      greenRequested hfree (.initial greenRequested_initial hfree)
    refine Line.DetectorsFree.run (fun op hop => ?_) i hs
    exact shortLine_detectors i ops hbody op (heq ▸ List.mem_append_left _ hop)
  exact ⟨hset, (green_line_is_reserved shortLine (by decide) hreachable).1 hset 1 le_rfl
    (by decide)⟩

end OpenmrnCue.Automata
