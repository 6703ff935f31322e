import OpenmrnCue.Automata.LineTokens

/-! What the operations of the pieces of a line do.  In a state where the automaton is initialised
and the reservations of the straight tracks are settled, an operation that is carried out is a step
of the tokens in both directions; and where there is no train, it sets no simulated occupancy and
releases no route. -/

namespace OpenmrnCue.Automata

/-! ## Operations -/

/-- The straight tracks are relays.  Signals request routes from side a to side b on their own. -/
def Line.roles (l : Line) (r : StraightRoute) : Tokens.Roles ℤ where
  relay i := 1 ≤ i ∧ i < l.last
  source i := r = .ab ∧ (i = 0 ∨ i = l.last)
  source_not_relay i := by
    rintro ⟨-, rfl | rfl⟩ ⟨hfirst, hlast⟩
    · omega
    · omega

/-- The line reads free, and the piece has simulated no train. -/
def Line.Unoccupied (l : Line) (i : ℤ) (s : LineState) : Prop :=
  l.DetectorsFree s ∧ s.bits (.piece i .simulatedOccupancy) = false

/-- The piece is initialised, and routes are not reset. -/
def LineState.Running (s : LineState) (i : ℤ) : Prop :=
  s.state i ≠ 0 ∧ s.bits .resetRoutes = false

/-- The conditions of an operation of the piece hold. -/
def LineState.Fires (s : LineState) (i : ℤ) (ifs : Conditions Side StraightRoute) : Prop :=
  ∀ c ∈ ifs, Layout.test (c.map (lineBit i)) (s.layout i) = true

/-- What the actions of an operation do. -/
structure Carries (l : Line) (i : ℤ) (s : LineState) (acts : Actions Side StraightRoute) :
    Prop where
  plain : ∀ a ∈ acts, a.Plain
  step : ∀ r, Tokens.Step r.ahead (l.roles r) (¬ l.Unoccupied i s) (s.tokens r) i
    (tokenWrites i r acts)
  vacant : l.Unoccupied i s → ∀ a ∈ acts, a ≠ .actReg1 .simulatedOccupancy

/-- The operation does so wherever it is carried out.  Only straight tracks have to be settled. -/
def Passes (l : Line) (i : ℤ) (op : PieceOp Side StraightRoute) : Prop :=
  ∀ s : LineState, s.Running i →
    (1 ≤ i ∧ i < l.last → (s.reservation i).Settled straightRoutes false) →
    s.Fires i op.ifs → Carries l i s op.acts

section Fires

variable {l : Line} {s : LineState} {i : ℤ} {ifs : Conditions Side StraightRoute}
  {var : Bit Side StraightRoute}

theorem LineState.Fires.reg0 (h : s.Fires i ifs) (hvar : .ifReg0 var ∈ ifs) :
    s.bits (lineBit i var) = false := by
  simpa [Condition.map, Layout.test, LineState.layout] using h _ hvar

theorem LineState.Fires.reg1 (h : s.Fires i ifs) (hvar : .ifReg1 var ∈ ifs) :
    s.bits (lineBit i var) = true := by
  simpa [Condition.map, Layout.test, LineState.layout] using h _ hvar

theorem LineState.reservation_read {value : Bool}
    (h : (s.reservation i).read var = some value) : s.bits (lineBit i var) = value := by
  cases var <;> first | exact Option.some.inj h | cases h

/-- A condition that holds can hold as far as the reservation tells. -/
theorem LineState.Fires.need (h : s.Fires i ifs) {c : Condition (Bit Side StraightRoute)}
    (hc : c ∈ ifs) : Reservation.need c (s.reservation i) := by
  cases c with
  | ifState state => exact beq_iff_eq.mp (h _ hc)
  | ifReg0 var =>
    intro hread
    have hbit := h.reg0 hc
    rw [LineState.reservation_read hread] at hbit
    cases hbit
  | ifReg1 var =>
    intro hread
    have hbit := h.reg1 hc
    rw [LineState.reservation_read hread] at hbit
    cases hbit
  | _ => trivial

theorem passes_stInit {op : PieceOp Side StraightRoute} (h : .ifState stInit ∈ op.ifs) :
    Passes l i op := by
  intro s hrunning _ hfires
  exact absurd (beq_iff_eq.mp (hfires _ h)) hrunning.1

theorem passes_reset {op : PieceOp Side StraightRoute} (h : .ifReg1 .resetRoutes ∈ op.ifs) :
    Passes l i op := by
  intro s hrunning _ hfires
  have hreset : s.bits .resetRoutes = true := hfires.reg1 h
  rw [hrunning.2] at hreset
  cases hreset

end Fires

/-! ## Operations apart from routes -/

/-- A variable that is not for routes or occupancy. -/
def Bit.Quiet : Bit Side StraightRoute → Prop
  | .interface _ .outTrySetRoute => False
  | .interface _ .inRouteSetSuccess => False
  | .interface _ .inRouteSetFailure => False
  | .routeSet _ => False
  | .routePending _ => False
  | .simulatedOccupancy => False
  | .resetRoutes => False
  | _ => True

/-- An action that writes only such variables. -/
def Action.Quiet : StraightAction → Prop
  | .actReg0 var => var.Quiet
  | .actReg1 var => var.Quiet
  | .actState _ => False
  | _ => True

/-- An action that writes the simulated occupancy, or that gives up a route. -/
def Action.Clears : StraightAction → Prop
  | .actReg0 (.routeSet _) => True
  | .actReg0 .simulatedOccupancy => True
  | .actReg1 .simulatedOccupancy => True
  | _ => False

section Quiet

variable {l : Line} {i : ℤ} {op : PieceOp Side StraightRoute}

theorem Bit.Quiet.slot {var : Bit Side StraightRoute} (h : var.Quiet) (i : ℤ) (r : StraightRoute) :
    (lineBit i var).slot r = none := by
  cases var with
  | interface place v =>
    obtain ⟨k, side, heq⟩ := lineBit_interface i place v
    rw [heq]
    cases v <;> first | rfl | exact absurd h id
  | _ => first | rfl | exact absurd h id

theorem Action.Quiet.tokenWrites {a : StraightAction} (h : a.Quiet) (i : ℤ) (r : StraightRoute) :
    (a.map (lineBit i)).tokenWrites r = [] := by
  cases a with
  | actReg0 var => simp [Action.map, Action.tokenWrites, Bit.Quiet.slot h]
  | actReg1 var => simp [Action.map, Action.tokenWrites, Bit.Quiet.slot h]
  | _ => rfl

theorem Action.Quiet.plain {a : StraightAction} (h : a.Quiet) : a.Plain := by
  cases a with
  | actReg0 var => rintro rfl; exact h
  | actReg1 var => rintro rfl; exact h
  | actState state => exact h
  | _ => trivial

theorem Action.Quiet.ne {a : StraightAction} (h : a.Quiet) : a ≠ .actReg1 .simulatedOccupancy := by
  rintro rfl
  exact h

theorem tokenWrites_quiet {acts : Actions Side StraightRoute} (h : ∀ a ∈ acts, a.Quiet)
    (r : StraightRoute) : tokenWrites i r acts = [] :=
  List.flatMap_eq_nil_iff.mpr fun a ha => (h a ha).tokenWrites i r

theorem passes_quiet (h : ∀ a ∈ op.acts, a.Quiet) : Passes l i op := by
  intro s _ _ _
  refine ⟨fun a ha => (h a ha).plain, fun r => ?_, fun _ a ha => (h a ha).ne⟩
  rw [tokenWrites_quiet h r]
  exact .release (by simp) (by simp)

/-- A variable that is 0 where there is no train. -/
def Line.Vacant (l : Line) : Bit Side StraightRoute → Prop
  | .foreign n => n ∈ l.detectors
  | .simulatedOccupancy => True
  | _ => False

theorem Line.Unoccupied.vacant {s : LineState} (h : l.Unoccupied i s)
    {var : Bit Side StraightRoute} (hvar : l.Vacant var) : s.bits (lineBit i var) = false := by
  cases var with
  | foreign n => exact h.1 n hvar
  | simulatedOccupancy => exact h.2
  | _ => exact absurd hvar id

theorem Action.Clears.tokenWrites {a : StraightAction} (h : a.Clears) (i : ℤ) (r : StraightRoute) :
    ∀ w ∈ (a.map (lineBit i)).tokenWrites r, w = (.granted i, false) := by
  intro w hw
  cases a with
  | actReg0 var =>
    cases var with
    | routeSet r' =>
      simp only [Action.map, lineBit, Automata.resolve, Action.tokenWrites, LineBit.slot] at hw
      split at hw
      · simpa using hw
      · simp at hw
    | simulatedOccupancy =>
      simp [Action.map, lineBit, Automata.resolve, Action.tokenWrites, LineBit.slot] at hw
    | _ => exact absurd h id
  | actReg1 var =>
    cases var with
    | simulatedOccupancy =>
      simp [Action.map, lineBit, Automata.resolve, Action.tokenWrites, LineBit.slot] at hw
    | _ => exact absurd h id
  | _ => exact absurd h id

theorem Action.Clears.plain {a : StraightAction} (h : a.Clears) : a.Plain := by
  cases a with
  | actReg0 var => rintro rfl; exact h
  | actReg1 var => rintro rfl; exact h
  | _ => exact absurd h id

/-- An operation that a train is needed for. -/
def Line.NeedsTrain (l : Line) (op : PieceOp Side StraightRoute) : Prop :=
  (∀ a ∈ op.acts, a.Quiet ∨ a.Clears) ∧ ∃ var, l.Vacant var ∧ .ifReg1 var ∈ op.ifs

theorem Line.NeedsTrain.passes (h : l.NeedsTrain op) : Passes l i op := by
  intro s _ _ hfires
  obtain ⟨hacts, var, hvacant, hvar⟩ := h
  have hoccupied : ¬ l.Unoccupied i s := by
    intro hfree
    have hone := hfires.reg1 hvar
    rw [hfree.vacant hvacant] at hone
    cases hone
  refine ⟨fun a ha => ?_, fun r => .release (fun w hw => ?_) fun _ => hoccupied,
    fun hfree => absurd hfree hoccupied⟩
  · rcases hacts a ha with hquiet | hclears
    · exact hquiet.plain
    · exact hclears.plain
  · obtain ⟨a, ha, hw⟩ := List.mem_flatMap.mp hw
    rcases hacts a ha with hquiet | hclears
    · rw [hquiet.tokenWrites i r] at hw
      cases hw
    · exact hclears.tokenWrites i r w hw

end Quiet

/-! ## Routes -/

/-- What a side of a piece is bound to. -/
def Side.neighbour : Side → CtrlTrackInterface Side
  | a => .other 0
  | b => .other 1

section Routes

variable {l : Line} {s : LineState} {i : ℤ} {ifs : Conditions Side StraightRoute}
  {acts : Actions Side StraightRoute} {r : StraightRoute}

/-- Actions that write tokens of one direction only. -/
theorem carries_of (hplain : ∀ a ∈ acts, a.Plain)
    (hother : ∀ r', r' ≠ r → tokenWrites i r' acts = [])
    (hvacant : ∀ a ∈ acts, a ≠ .actReg1 .simulatedOccupancy)
    (hstep : Tokens.Step r.ahead (l.roles r) (¬ l.Unoccupied i s) (s.tokens r) i
      (tokenWrites i r acts)) : Carries l i s acts := by
  refine ⟨hplain, fun r' => ?_, fun _ => hvacant⟩
  by_cases hr : r' = r
  · subst hr
    exact hstep
  · rw [hother r' hr]
    exact .release (by simp) (by simp)

/-- The request of the piece before. -/
theorem LineState.Fires.request (h : s.Fires i ifs)
    (hrequest : .ifReg1 (.interface r.entry.neighbour .outTrySetRoute) ∈ ifs) :
    (s.tokens r).request (r.ahead.symm i) = true := by
  have hbit := h.reg1 hrequest
  cases r <;> exact hbit

theorem LineState.Fires.success (h : s.Fires i ifs)
    (hanswer : .ifReg1 (.interface r.exit.neighbour .inRouteSetSuccess) ∈ ifs) :
    (s.tokens r).success (r.ahead i) = true := by
  have hbit := h.reg1 hanswer
  cases r <;> exact hbit

theorem LineState.Fires.failure (h : s.Fires i ifs)
    (hanswer : .ifReg1 (.interface r.exit.neighbour .inRouteSetFailure) ∈ ifs) :
    (s.tokens r).failure (r.ahead i) = true := by
  have hbit := h.reg1 hanswer
  cases r <;> exact hbit

theorem LineState.Fires.pending (h : s.Fires i ifs) (hpending : .ifReg1 (.routePending r) ∈ ifs) :
    (s.tokens r).pending i = true :=
  h.reg1 hpending

/-- The operation that rejects a request. -/
theorem passes_reject (hrequest : .ifReg1 (.interface r.entry.neighbour .outTrySetRoute) ∈ ifs) :
    Passes l i ⟨ifs, [.actReg1 (.interface (.side r.entry) .inRouteSetFailure),
      .actReg0 (.interface (.side r.entry) .inRouteSetSuccess),
      .actReg0 (.interface r.entry.neighbour .outTrySetRoute)]⟩ := by
  intro s _ _ hfires
  refine carries_of (r := r) (by simp [Action.Plain]) (fun r' hr => ?_) (by simp) ?_
  · cases r <;> cases r' <;> first | rfl | exact absurd rfl hr
  · have hstep : Tokens.Step r.ahead (l.roles r) (¬ l.Unoccupied i s) (s.tokens r) i
        (Tokens.reject r.ahead i) := .reject (hfires.request hrequest)
    cases r <;> exact hstep

/-- The operation that passes a request on.  A straight track is free then. -/
theorem passes_forward (hrequest : .ifReg1 (.interface r.entry.neighbour .outTrySetRoute) ∈ ifs)
    (hlock : .ifReg0 .tmpRouteSettingInProgress ∈ ifs)
    (hset : ∀ r' : StraightRoute, .ifReg0 (.routeSet r') ∈ ifs) :
    Passes l i ⟨ifs, [.actReg1 .tmpRouteSettingInProgress, .actReg1 (.routePending r),
      .actReg0 (.interface r.entry.neighbour .outTrySetRoute),
      .actReg0 (.interface r.exit.neighbour .inRouteSetSuccess),
      .actReg0 (.interface r.exit.neighbour .inRouteSetFailure),
      .actReg1 (.interface (.side r.exit) .outTrySetRoute)]⟩ := by
  intro s _ hsettled hfires
  have hidle : (l.roles r).relay i → (s.tokens r).pending i = false := by
    intro hrelay
    have hfree := (hsettled hrelay).free (fun r' => hfires.reg0 (hset r')) (hfires.reg0 hlock)
    exact hfree (.pending r)
  refine carries_of (r := r) (by simp [Action.Plain]) (fun r' hr => ?_) (by simp) ?_
  · cases r <;> cases r' <;> first | rfl | exact absurd rfl hr
  · have hstep : Tokens.Step r.ahead (l.roles r) (¬ l.Unoccupied i s) (s.tokens r) i
        (Tokens.forward r.ahead i) := .forward (hfires.request hrequest) hidle
    cases r <;> exact hstep

/-- The operation for an answer that refuses the request. -/
theorem passes_failure (hpending : .ifReg1 (.routePending r) ∈ ifs)
    (hanswer : .ifReg1 (.interface r.exit.neighbour .inRouteSetFailure) ∈ ifs) :
    Passes l i ⟨ifs, [.actReg0 (.routePending r),
      .actReg0 (.interface r.exit.neighbour .inRouteSetFailure),
      .actReg0 (.interface r.exit.neighbour .inRouteSetSuccess),
      .actReg0 .tmpRouteSettingInProgress,
      .actReg0 (.interface (.side r.entry) .inRouteSetSuccess),
      .actReg1 (.interface (.side r.entry) .inRouteSetFailure)]⟩ := by
  intro s _ _ hfires
  refine carries_of (r := r) (by simp [Action.Plain]) (fun r' hr => ?_) (by simp) ?_
  · cases r <;> cases r' <;> first | rfl | exact absurd rfl hr
  · have hstep : Tokens.Step r.ahead (l.roles r) (¬ l.Unoccupied i s) (s.tokens r) i
        (Tokens.passFailure r.ahead i) :=
      .passFailure (hfires.pending hpending) (hfires.failure hanswer)
    cases r <;> exact hstep

/-- The operation for an answer that grants the request. -/
theorem passes_success (hpending : .ifReg1 (.routePending r) ∈ ifs)
    (hanswer : .ifReg1 (.interface r.exit.neighbour .inRouteSetSuccess) ∈ ifs) :
    Passes l i ⟨ifs, [.actReg0 (.routePending r),
      .actReg0 (.interface r.exit.neighbour .inRouteSetFailure),
      .actReg0 (.interface r.exit.neighbour .inRouteSetSuccess),
      .actReg0 .tmpRouteSettingInProgress,
      .actReg0 (.interface (.side r.entry) .inRouteSetFailure),
      .actReg1 (.interface (.side r.entry) .inRouteSetSuccess)] ++
      [.routeSet r].map .actReg1⟩ := by
  intro s _ _ hfires
  refine carries_of (r := r) (by simp [Action.Plain]) (fun r' hr => ?_) (by simp) ?_
  · cases r <;> cases r' <;> first | rfl | exact absurd rfl hr
  · have hstep : Tokens.Step r.ahead (l.roles r) (¬ l.Unoccupied i s) (s.tokens r) i
        (Tokens.passSuccess r.ahead i) :=
      .passSuccess (hfires.pending hpending) (hfires.success hanswer)
    cases r <;> exact hstep

/-- The track is bound to its neighbours. -/
def Bound (t : Track Side StraightRoute) : Prop :=
  ∀ side : Side, (t.binding side).interface = side.neighbour

/-- The operations of `SimulateRoute`, where the routes are in conflict with each other. -/
theorem passes_simulateRoute {t : Track Side StraightRoute} (ht : Bound t)
    (condition : Conditions Side StraightRoute) (r : StraightRoute)
    {conflicting : List (Bit Side StraightRoute)}
    (hconflicting : ∀ r', r' ≠ r → .routeSet r' ∈ conflicting) :
    ∀ op ∈ simulateRoute t condition r.entry r.exit (.routePending r) [.routeSet r] conflicting,
      Passes l i op := by
  intro op hop
  simp only [simulateRoute, ht r.entry, ht r.exit, List.mem_append, List.mem_cons,
    List.not_mem_nil, or_false] at hop
  rcases hop with (rfl | hop) | rfl | rfl | rfl | rfl | rfl | rfl
  · exact passes_stInit (by simp)
  · split at hop
    · rw [List.mem_singleton.mp hop]
      exact passes_reset (by simp)
    · cases hop
  · exact passes_reject (by simp)
  · exact passes_reject (by simp)
  · refine passes_forward (by simp) (by simp) fun r' => ?_
    by_cases hr : r' = r
    · simp [hr]
    · simp [hconflicting r' hr]
  · exact passes_reject (by simp)
  · exact passes_failure (by simp) (by simp)
  · exact passes_success (by simp) (by simp)

end Routes

section Signals

variable {l : Line} {i : ℤ} {ifs : Conditions Side StraightRoute}
  {acts : Actions Side StraightRoute} {r : StraightRoute}
  {goSignal : Option (Bit Side StraightRoute)}

/-- Actions on a signal, which is a variable of the layout. -/
theorem quiet_maybeActReg (hsignal : ∀ var, goSignal = some var → var.Quiet) (b : Bool) :
    ∀ a ∈ maybeActReg goSignal b, a.Quiet := by
  intro a ha
  cases goSignal with
  | none => cases ha
  | some var =>
    rw [List.mem_singleton.mp ha]
    cases b <;> exact hsignal var rfl

/-- Quiet actions around others make no difference. -/
theorem carries_quiet {s : LineState} (before : Actions Side StraightRoute)
    {after : Actions Side StraightRoute}
    (hbefore : ∀ a ∈ before, a.Quiet) (hafter : ∀ a ∈ after, a.Quiet) (h : Carries l i s acts) :
    Carries l i s (before ++ acts ++ after) := by
  have hcases : ∀ a ∈ before ++ acts ++ after, a.Quiet ∨ a ∈ acts := by
    intro a ha
    rcases List.mem_append.mp ha with ha | ha
    · rcases List.mem_append.mp ha with ha | ha
      · exact .inl (hbefore a ha)
      · exact .inr ha
    · exact .inl (hafter a ha)
  refine ⟨fun a ha => ?_, fun r => ?_, fun hfree a ha => ?_⟩
  · rcases hcases a ha with hquiet | ha
    · exact hquiet.plain
    · exact h.plain a ha
  · have hwrites : tokenWrites i r (before ++ acts ++ after) = tokenWrites i r acts := by
      have hsplit : tokenWrites i r (before ++ acts ++ after) =
          tokenWrites i r before ++ tokenWrites i r acts ++ tokenWrites i r after := by
        simp [tokenWrites]
      rw [hsplit, tokenWrites_quiet hbefore, tokenWrites_quiet hafter]
      simp
    rw [hwrites]
    exact h.step r
  · rcases hcases a ha with hquiet | ha
    · exact hquiet.ne
    · exact h.vacant hfree a ha

/-- A signal grants the request of the piece before. -/
theorem passes_grant (hrelay : ¬ (l.roles r).relay i)
    (hrequest : .ifReg1 (.interface r.entry.neighbour .outTrySetRoute) ∈ ifs)
    (hsignal : ∀ var, goSignal = some var → var.Quiet) :
    Passes l i ⟨ifs, maybeActReg goSignal false ++
      [.actReg0 (.interface r.entry.neighbour .outTrySetRoute),
        .actReg0 (.interface (.side r.entry) .inRouteSetFailure),
        .actReg1 (.interface (.side r.entry) .inRouteSetSuccess)]⟩ := by
  intro s _ _ hfires
  rw [← List.append_nil (maybeActReg goSignal false ++ _)]
  refine carries_quiet _ (quiet_maybeActReg hsignal false) (by simp)
    (carries_of (r := r) (by simp [Action.Plain]) (fun r' hr => ?_) (by simp) ?_)
  · cases r <;> cases r' <;> first | rfl | exact absurd rfl hr
  · have hstep : Tokens.Step r.ahead (l.roles r) (¬ l.Unoccupied i s) (s.tokens r) i
        (Tokens.grant r.ahead i) := .grant hrelay (hfires.request hrequest)
    cases r <;> exact hstep

/-- A signal requests a route of its own. -/
theorem passes_ask (hsource : (l.roles r).source i) :
    Passes l i ⟨ifs, [.actReg1 (.interface (.side r.exit) .outTrySetRoute),
      .actReg1 .tmpRouteSettingInProgress]⟩ := by
  intro s _ _ _
  refine carries_of (r := r) (by simp [Action.Plain]) (fun r' hr => ?_) (by simp) ?_
  · cases r <;> cases r' <;> first | rfl | exact absurd rfl hr
  · have hstep : Tokens.Step r.ahead (l.roles r) (¬ l.Unoccupied i s) (s.tokens r) i
        [(.request i, true)] := .ask hsource
    cases r <;> exact hstep

/-- Its request has been granted. -/
theorem passes_obtained (hsource : (l.roles r).source i)
    (hanswer : .ifReg1 (.interface r.exit.neighbour .inRouteSetSuccess) ∈ ifs) (requestGreen : Nat)
    (hsignal : ∀ var, goSignal = some var → var.Quiet) :
    Passes l i ⟨ifs, [.actReg0 (.interface r.exit.neighbour .inRouteSetSuccess),
      .actReg0 .tmpRouteSettingInProgress, .actReg0 (.foreign requestGreen)] ++
      [.routeSet r].map .actReg1 ++ maybeActReg goSignal true⟩ := by
  intro s _ _ hfires
  have hcarries : Carries l i s ([.actReg0 (.interface r.exit.neighbour .inRouteSetSuccess),
      .actReg0 .tmpRouteSettingInProgress, .actReg0 (.foreign requestGreen)] ++
      [.routeSet r].map .actReg1) := by
    refine carries_of (r := r) (by simp [Action.Plain]) (fun r' hr => ?_) (by simp) ?_
    · cases r <;> cases r' <;> first | rfl | exact absurd rfl hr
    · have hstep : Tokens.Step r.ahead (l.roles r) (¬ l.Unoccupied i s) (s.tokens r) i
          [(.success (r.ahead i), false), (.granted i, true)] :=
        .obtained hsource (hfires.success hanswer)
      cases r <;> exact hstep
  exact carries_quiet [] (by simp) (quiet_maybeActReg hsignal true) hcarries

/-- Its request has been refused. -/
theorem passes_refused (hsource : (l.roles r).source i) (requestGreen : Nat)
    (hsignal : ∀ var, goSignal = some var → var.Quiet) :
    Passes l i ⟨ifs, [.actReg0 (.interface r.exit.neighbour .inRouteSetFailure),
      .actReg0 .tmpRouteSettingInProgress, .actReg0 (.foreign requestGreen)] ++
      maybeActReg goSignal false⟩ := by
  intro s _ _ _
  have hcarries : Carries l i s [.actReg0 (.interface r.exit.neighbour .inRouteSetFailure),
      .actReg0 .tmpRouteSettingInProgress, .actReg0 (.foreign requestGreen)] := by
    refine carries_of (r := r) (by simp [Action.Plain]) (fun r' hr => ?_) (by simp) ?_
    · cases r <;> cases r' <;> first | rfl | exact absurd rfl hr
    · have hstep : Tokens.Step r.ahead (l.roles r) (¬ l.Unoccupied i s) (s.tokens r) i
          [(.failure (r.ahead i), false)] := .refused hsource
      cases r <;> exact hstep
  exact carries_quiet [] (by simp) (quiet_maybeActReg hsignal false) hcarries

/-- The operations of `SimulateSignalFwdRoute` at the signals of the line. -/
theorem passes_simulateSignalFwdRoute {t : Track Side StraightRoute} (ht : Bound t)
    (hend : i = 0 ∨ i = l.last) (hsignal : ∀ var, goSignal = some var → var.Quiet)
    (requestGreen : Nat) (routeNoStop : Bit Side StraightRoute) :
    ∀ op ∈ simulateSignalFwdRoute t .a .b (.routePending .ab) [.routeSet .ab] [.routeSet .ba]
      goSignal (.foreign requestGreen) routeNoStop, Passes l i op := by
  have hsource : (l.roles .ab).source i := ⟨rfl, hend⟩
  intro op hop
  simp only [simulateSignalFwdRoute, ht .a, ht .b, List.mem_append, List.mem_cons,
    List.not_mem_nil, or_false] at hop
  rcases hop with ((rfl | hop) | rfl | rfl | rfl | rfl | rfl | rfl) | hop
  · exact passes_stInit (by simp)
  · split at hop
    · rw [List.mem_singleton.mp hop]
      exact passes_reset (by simp)
    · cases hop
  · exact passes_reject (r := .ab) (by simp [StraightRoute.entry])
  · exact passes_grant (r := .ab) ((l.roles .ab).source_not_relay i hsource)
      (by simp [StraightRoute.entry]) hsignal
  · exact passes_reject (r := .ab) (by simp [StraightRoute.entry])
  · exact passes_ask (r := .ab) hsource
  · exact passes_obtained (r := .ab) hsource (by simp [StraightRoute.exit]) requestGreen hsignal
  · exact passes_refused (r := .ab) hsource requestGreen hsignal
  · refine passes_simulateRoute ht _ .ab (fun r' hr => ?_) op hop
    cases r' with
    | ab => exact absurd rfl hr
    | ba => simp

end Signals

/-! ## Occupancy and signal aspects -/

section Occupancy

variable {l : Line} {i : ℤ} {ops : List (PieceOp Side StraightRoute)}

theorem quiet_or_clears_releaseRouteCallback (side : Side) (r : StraightRoute) :
    ∀ a ∈ releaseRouteCallback side (.routeSet r), a.Quiet ∨ a.Clears := by
  intro a ha
  rcases List.mem_cons.mp ha with rfl | ha
  · exact .inl trivial
  · rw [List.mem_singleton.mp ha]
    exact .inr trivial

/-- The detectors next to a track are among those of the line. -/
def Line.Detects (l : Line) (t : Track Side StraightRoute) : Prop :=
  ∀ side : Side, (∀ var, (t.binding side).nextDetector = some var → l.Vacant var) ∧
    ∀ var, (t.binding side).farDetector = some var → l.Vacant var

theorem passes_simulateOccupancy {t : Track Side StraightRoute} (ht : l.Detects t)
    {routeSet : Bit Side StraightRoute} {past next side : Side} {r : StraightRoute}
    (h : simulateOccupancy t routeSet past next (releaseRouteCallback side (.routeSet r)) =
      some ops) : ∀ op ∈ ops, Passes l i op := by
  have hrelease := quiet_or_clears_releaseRouteCallback side r
  obtain ⟨previousOcc, hprevious, h⟩ := Option.bind_eq_some_iff.mp h
  cases h
  intro op hop
  simp only [List.mem_append] at hop
  rcases hop with (((hop | hop) | hop) | hop) | hop
  · split at hop
    · simp only [List.mem_cons, List.not_mem_nil, or_false] at hop
      rcases hop with rfl | rfl
      · exact passes_quiet (by simp [Action.Quiet, Bit.Quiet])
      · exact passes_quiet (by simp [Action.Quiet, Bit.Quiet])
    · cases hop
  · rw [List.mem_singleton.mp hop]
    refine Line.NeedsTrain.passes ⟨?_, previousOcc, (ht past).1 _ hprevious, by simp⟩
    simp [Action.Quiet, Bit.Quiet, Action.Clears]
  · split at hop
    · rw [List.mem_singleton.mp hop]
      exact passes_reset (by simp)
    · cases hop
  · split at hop
    · next far hfar =>
      rw [List.mem_singleton.mp hop]
      refine Line.NeedsTrain.passes ⟨?_, far, (ht next).2 _ hfar, by simp⟩
      intro a ha
      simp only [List.mem_append, List.mem_cons, List.not_mem_nil, or_false] at ha
      rcases ha with (rfl | rfl) | ha
      · exact .inl trivial
      · exact .inr trivial
      · exact hrelease a ha
    · cases hop
  · split at hop
    · split at hop
      · simp only [List.mem_cons, List.not_mem_nil, or_false] at hop
        rcases hop with rfl | rfl
        · exact passes_quiet (by simp [Action.Quiet, Bit.Quiet])
        · refine Line.NeedsTrain.passes ⟨?_, .simulatedOccupancy, trivial, by simp⟩
          intro a ha
          simp only [List.mem_append, List.mem_cons, List.not_mem_nil, or_false] at ha
          rcases ha with rfl | ha
          · exact .inr trivial
          · exact hrelease a ha
      · cases hop
    · cases hop

theorem passes_simulateAllOccupancy {p : StraightTrack} (ht : l.Detects p.toTrack)
    (hexternal : ∀ var, p.externalOccupancy = some var → l.Vacant var)
    (h : p.simulateAllOccupancy = some ops) : ∀ op ∈ ops, Passes l i op := by
  unfold StraightTrack.simulateAllOccupancy at h
  split at h
  · next src hsrc =>
    cases h
    intro op hop
    simp only [StraightTrack.copyOccupancy, List.mem_cons, List.not_mem_nil, or_false] at hop
    rcases hop with rfl | rfl | rfl | rfl
    · refine Line.NeedsTrain.passes ⟨?_, src, hexternal _ hsrc, by simp⟩
      simp [Action.Clears]
    · refine Line.NeedsTrain.passes ⟨?_, .simulatedOccupancy, trivial, by simp⟩
      exact quiet_or_clears_releaseRouteCallback _ _
    · refine Line.NeedsTrain.passes ⟨?_, .simulatedOccupancy, trivial, by simp⟩
      exact quiet_or_clears_releaseRouteCallback _ _
    · refine Line.NeedsTrain.passes ⟨?_, .simulatedOccupancy, trivial, by simp⟩
      simp [Action.Clears]
  · obtain ⟨ab, hab, h⟩ := Option.bind_eq_some_iff.mp h
    obtain ⟨ba, hba, h⟩ := Option.bind_eq_some_iff.mp h
    cases h
    intro op hop
    rcases List.mem_append.mp hop with hop | hop
    · exact passes_simulateOccupancy ht hab op hop
    · exact passes_simulateOccupancy ht hba op hop

theorem quiet_copySignals (src dst : CtrlTrackInterface Side) :
    ∀ op ∈ copySignals src dst (R := StraightRoute) [], ∀ a ∈ op.acts, a.Quiet := by
  simp [copySignals, defCopy, Action.Quiet, Bit.Quiet]

end Occupancy

end OpenmrnCue.Automata
