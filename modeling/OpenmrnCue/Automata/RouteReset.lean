import OpenmrnCue.Automata.PluginWrites
import OpenmrnCue.Automata.RawDetector
import OpenmrnCue.Automata.RouteRequests

/-! What a run with `reset_routes` makes of the routes of a track piece.  The reset clears the lock
and the request at the neighbour, but not the request that is pending: the piece is idle afterwards
only if every pending request has been refused by then. -/

namespace OpenmrnCue.Automata

section Requests

variable {S R : Type}

/-- The requests of a piece in a layout. -/
def Layout.requests (s : Layout (Bit S R)) : RouteRequests S R where
  set r := s.bits (.routeSet r)
  pending r := s.bits (.routePending r)
  inProgress := s.bits .tmpRouteSettingInProgress
  trying x := s.bits (.interface (.side x) .outTrySetRoute)
  failure n := s.bits (.interface (.other n) .inRouteSetFailure)
  success n := s.bits (.interface (.other n) .inRouteSetSuccess)

/-- The bit is one of the requests. -/
def Bit.OfRequests : Bit S R → Prop
  | .routeSet _ => True
  | .routePending _ => True
  | .tmpRouteSettingInProgress => True
  | .interface (.side _) .outTrySetRoute => True
  | .interface (.other _) .inRouteSetFailure => True
  | .interface (.other _) .inRouteSetSuccess => True
  | _ => False

/-- Layouts that agree on these bits have the same requests. -/
theorem Layout.requests_congr {s s' : Layout (Bit S R)}
    (h : ∀ var : Bit S R, var.OfRequests → s'.bits var = s.bits var) :
    s'.requests = s.requests := by
  unfold requests
  congr 1
  · exact funext fun r => h (.routeSet r) trivial
  · exact funext fun r => h (.routePending r) trivial
  · exact h .tmpRouteSettingInProgress trivial
  · exact funext fun x => h (.interface (.side x) .outTrySetRoute) trivial
  · exact funext fun n => h (.interface (.other n) .inRouteSetFailure) trivial
  · exact funext fun n => h (.interface (.other n) .inRouteSetSuccess) trivial

variable [DecidableEq S] [DecidableEq R]

/-- What a write of a bit does to the requests. -/
def RouteRequests.write (q : RouteRequests S R) (var : Bit S R) (value : Bool) :
    RouteRequests S R :=
  match var with
  | .routeSet r => { q with set := Function.update q.set r value }
  | .routePending r => { q with pending := Function.update q.pending r value }
  | .tmpRouteSettingInProgress => { q with inProgress := value }
  | .interface (.side x) .outTrySetRoute => { q with trying := Function.update q.trying x value }
  | .interface (.other n) .inRouteSetFailure =>
    { q with failure := Function.update q.failure n value }
  | .interface (.other n) .inRouteSetSuccess =>
    { q with success := Function.update q.success n value }
  | _ => q

theorem Layout.requests_setBit (s : Layout (Bit S R)) (var : Bit S R) (value : Bool) :
    (s.setBit var value).requests = s.requests.write var value := by
  have hbits : ∀ other : Bit S R, (s.setBit var value).bits other =
      if other = var then value else s.bits other := by
    intro other
    simp [setBit, Function.update_apply]
  unfold requests
  simp only [hbits]
  cases var with
  | interface i v =>
    cases i <;> cases v <;> simp [RouteRequests.write, funext_iff, Function.update_apply]
  | _ => simp [RouteRequests.write, funext_iff, Function.update_apply]

/-- What an action does to the requests. -/
def RouteRequests.act : RouteRequests S R → Action (Bit S R) Empty → RouteRequests S R
  | q, .actReg0 var => q.write var false
  | q, .actReg1 var => q.write var true
  | q, _ => q

theorem Layout.requests_acts (acts : Actions S R) (s : Layout (Bit S R)) :
    (acts.foldl (fun s a => Layout.perform a s) s).requests =
      acts.foldl RouteRequests.act s.requests := by
  induction acts generalizing s with
  | nil => rfl
  | cons a acts ih =>
    have ha : (Layout.perform a s).requests = s.requests.act a := by
      cases a with
      | actReg0 var => exact s.requests_setBit var false
      | actReg1 var => exact s.requests_setBit var true
      | _ => rfl
    rw [List.foldl_cons, List.foldl_cons, ih, ha]

end Requests

/-! ### Runs without a request -/

section Undisturbed

variable {S R : Type} {asks : Bit S R → Prop}

/-- The routes are reset, and none of these bits asks for a route. -/
structure Layout.Undisturbed (asks : Bit S R → Prop) (s : Layout (Bit S R)) : Prop where
  reset : s.bits .resetRoutes = true
  unasked : ∀ var, asks var → s.bits var = false

/-- The action does not end the reset, and asks for no route. -/
def Action.Calm (asks : Bit S R → Prop) : Action (Bit S R) Empty → Prop
  | .actReg0 var => var ≠ .resetRoutes
  | .actReg1 var => ¬ asks var
  | _ => True

variable [DecidableEq S] [DecidableEq R]

theorem Layout.Undisturbed.perform {s : Layout (Bit S R)} (h : s.Undisturbed asks)
    {a : Action (Bit S R) Empty} (ha : a.Calm asks) : (Layout.perform a s).Undisturbed asks := by
  cases a with
  | actReg0 var =>
    refine ⟨?_, fun other hother => ?_⟩
    · simp [Layout.perform, setBit, Function.update_of_ne (Ne.symm ha), h.reset]
    · by_cases heq : other = var
      · simp [Layout.perform, setBit, heq]
      · simp [Layout.perform, setBit, heq, h.unasked other hother]
  | actReg1 var =>
    refine ⟨?_, fun other hother => ?_⟩
    · by_cases heq : .resetRoutes = var
      · simp [Layout.perform, setBit, ← heq]
      · simp [Layout.perform, setBit, heq, h.reset]
    · have hne : other ≠ var := fun heq => ha (heq ▸ hother)
      simp [Layout.perform, setBit, hne, h.unasked other hother]
  | _ => exact ⟨h.reset, h.unasked⟩

theorem Layout.Undisturbed.run {s : Layout (Bit S R)} (h : s.Undisturbed asks)
    {ops : List (PieceOp S R)} (hops : EachAction (Action.Calm asks) ops) :
    (s.run ops).Undisturbed asks := by
  refine s.run_keeps (I := Undisturbed asks) h fun op hop t ht => ?_
  exact t.exec_keeps (I := Undisturbed asks) ht fun a ha u hu => hu.perform (hops op hop a ha)

/-- An operation for a request is not carried out. -/
theorem Layout.Undisturbed.exec {s : Layout (Bit S R)} (h : s.Undisturbed asks)
    {op : PieceOp S R} {var : Bit S R} (hvar : asks var) (hop : .ifReg1 var ∈ op.ifs) :
    s.exec op = s := by
  rcases s.exec_cases op with heq | ⟨hifs, -⟩
  · exact heq
  · cases (h.unasked var hvar).symm.trans (s.test_ifReg1.mp (hifs _ hop))

/-- Operations for requests are not carried out. -/
theorem Layout.Undisturbed.run_requests {s : Layout (Bit S R)} (h : s.Undisturbed asks)
    {ops : List (PieceOp S R)} (hops : ∀ op ∈ ops, ∃ var, asks var ∧ .ifReg1 var ∈ op.ifs) :
    s.run ops = s := by
  refine s.run_keeps (I := fun t => t = s) rfl fun op hop t ht => ?_
  obtain ⟨var, hvar, hif⟩ := hops op hop
  rw [ht]
  exact h.exec hvar hif

end Undisturbed

/-! ### Directions -/

section Directions

variable {S R : Type} [DecidableEq S] [DecidableEq R] {s : Layout (Bit S R)}
  (d : RouteDirection S R)

/-- Writes of `any_route_set` do nothing to the requests. -/
theorem acts_anyRouteSet {extra : List (Bit S R)} (hextra : ∀ var ∈ extra, var = .anyRouteSet)
    {act : Bit S R → Action (Bit S R) Empty} (hact : act = .actReg0 ∨ act = .actReg1)
    (q : RouteRequests S R) : (extra.map act).foldl RouteRequests.act q = q := by
  induction extra with
  | nil => rfl
  | cons var extra ih =>
    obtain ⟨rfl, hrest⟩ := List.forall_mem_cons.mp hextra
    have hq : q.act (act .anyRouteSet) = q := by rcases hact with rfl | rfl <;> rfl
    rw [List.map_cons, List.foldl_cons, hq]
    exact ih hrest

/-- What the initialization of a direction clears. -/
def clearActs : Actions S R :=
  [.actReg0 (.interface (.side d.after) .outTrySetRoute), .actReg0 .tmpRouteSettingInProgress,
    .actReg0 (.interface (.side d.before) .inRouteSetSuccess),
    .actReg0 (.interface (.side d.before) .inRouteSetFailure)]

/-- What the reset of a direction clears. -/
def resetActs (extra : List (Bit S R)) : Actions S R :=
  clearActs d ++ (.routeSet d.route :: extra).map .actReg0

theorem acts_resetActs {extra : List (Bit S R)} (hextra : ∀ var ∈ extra, var = .anyRouteSet)
    (q : RouteRequests S R) : (resetActs d extra).foldl RouteRequests.act q = q.clear d := by
  rw [resetActs, List.foldl_append, List.map_cons, List.foldl_cons,
    acts_anyRouteSet hextra (.inl rfl)]
  rfl

/-- The initialization and the reset of a direction. -/
theorem requests_initialization {asks : Bit S R → Prop} (hs : s.Undisturbed asks)
    {extra : List (Bit S R)} (hextra : ∀ var ∈ extra, var = .anyRouteSet) :
    (s.run ([⟨[.ifState stInit], clearActs d⟩, ⟨[.ifReg1 .resetRoutes], resetActs d extra⟩] :
      List (PieceOp S R))).requests = s.requests.clear d := by
  have hrun : s.run ([⟨[.ifState stInit], clearActs d⟩,
      ⟨[.ifReg1 .resetRoutes], resetActs d extra⟩] : List (PieceOp S R)) =
    (s.exec ⟨[.ifState stInit], clearActs d⟩).exec
      ⟨[.ifReg1 .resetRoutes], resetActs d extra⟩ := rfl
  have hcalm : ∀ a ∈ clearActs d, a.Calm asks := by simp [clearActs, Action.Calm]
  have hfirst : (s.exec ⟨[.ifState stInit], clearActs d⟩).Undisturbed asks :=
    s.exec_keeps (I := Layout.Undisturbed asks) hs fun a ha u hu => hu.perform (hcalm a ha)
  rw [hrun]
  generalize hs1 : s.exec ⟨[.ifState stInit], clearActs d⟩ = s1 at hfirst
  rw [Layout.exec, if_pos (by simp [Layout.test, hfirst.reset]), Layout.requests_acts,
    acts_resetActs d hextra, ← hs1]
  rcases s.exec_cases (⟨[.ifState stInit], clearActs d⟩ : PieceOp S R) with heq | ⟨-, heq⟩
  · rw [heq]
  · rw [heq, Layout.requests_acts]
    simp [clearActs, RouteRequests.act, RouteRequests.write, RouteRequests.clear]

/-- What a refusal and a grant do. -/
def refuseActs (n : Nat) : Actions S R :=
  [.actReg0 (.routePending d.route), .actReg0 (.interface (.other n) .inRouteSetFailure),
    .actReg0 (.interface (.other n) .inRouteSetSuccess), .actReg0 .tmpRouteSettingInProgress,
    .actReg0 (.interface (.side d.before) .inRouteSetSuccess),
    .actReg1 (.interface (.side d.before) .inRouteSetFailure)]

def grantActs (n : Nat) (extra : List (Bit S R)) : Actions S R :=
  [.actReg0 (.routePending d.route), .actReg0 (.interface (.other n) .inRouteSetFailure),
    .actReg0 (.interface (.other n) .inRouteSetSuccess), .actReg0 .tmpRouteSettingInProgress,
    .actReg0 (.interface (.side d.before) .inRouteSetFailure),
    .actReg1 (.interface (.side d.before) .inRouteSetSuccess)] ++
      (.routeSet d.route :: extra).map .actReg1

theorem acts_refuseActs (n : Nat) (q : RouteRequests S R) :
    (refuseActs d n).foldl RouteRequests.act q = q.answered d n := rfl

theorem acts_grantActs (n : Nat) {extra : List (Bit S R)}
    (hextra : ∀ var ∈ extra, var = .anyRouteSet) (q : RouteRequests S R) :
    (grantActs d n extra).foldl RouteRequests.act q =
      { q.answered d n with set := Function.update q.set d.route true } := by
  rw [grantActs, List.foldl_append, List.map_cons, List.foldl_cons,
    acts_anyRouteSet hextra (.inr rfl)]
  rfl

/-- The answer of the neighbour. -/
theorem requests_answers (s : Layout (Bit S R)) (n : Nat) {extra : List (Bit S R)}
    (hextra : ∀ var ∈ extra, var = .anyRouteSet) :
    (s.run ([⟨[.ifReg1 (.routePending d.route),
        .ifReg1 (.interface (.other n) .inRouteSetFailure)], refuseActs d n⟩,
      ⟨[.ifReg1 (.routePending d.route), .ifReg1 (.interface (.other n) .inRouteSetSuccess)],
        grantActs d n extra⟩] : List (PieceOp S R))).requests = s.requests.answer d n := by
  have hexec : ∀ (t : Layout (Bit S R)) (var : Bit S R) (acts : Actions S R),
      t.exec ⟨[.ifReg1 (.routePending d.route), .ifReg1 var], acts⟩ =
        if t.requests.pending d.route && t.bits var then
          acts.foldl (fun s a => Layout.perform a s) t else t := by
    intro t var acts
    simp [Layout.exec, Layout.test, Layout.requests]
  have hfailure : s.bits (.interface (.other n) .inRouteSetFailure) = s.requests.failure n := rfl
  rw [Layout.run, List.foldl_cons, List.foldl_cons, List.foldl_nil, hexec, hexec, hfailure,
    RouteRequests.answer]
  by_cases hrefused : (s.requests.pending d.route && s.requests.failure n) = true
  · have hrequests : ((refuseActs d n).foldl (fun s a => Layout.perform a s) s).requests =
      s.requests.answered d n := by rw [Layout.requests_acts, acts_refuseActs]
    have hdone : (s.requests.answered d n).pending d.route = false := by
      simp [RouteRequests.answered]
    rw [if_pos hrefused, if_pos hrefused, hrequests, hdone, Bool.false_and,
      if_neg Bool.false_ne_true, hrequests]
  · rw [if_neg hrefused, if_neg hrefused]
    have hsuccess : s.bits (.interface (.other n) .inRouteSetSuccess) = s.requests.success n := rfl
    rw [hsuccess]
    split
    · rw [Layout.requests_acts, acts_grantActs d n hextra]
    · rfl

variable {t : Track S R} {asks : Bit S R → Prop} {n : Nat}
  {extra conflictingRoutes : List (Bit S R)}

omit [DecidableEq S] [DecidableEq R] in
/-- `SimulateRoute` is the reset, what it does with a request, and what it does with an answer. -/
theorem simulateRoute_eq (hreset : t.hasResetRoutes = true)
    (hn : (t.binding d.after).interface = .other n) (condition : Conditions S R) :
    ∃ requests : List (PieceOp S R), (∀ op ∈ requests,
      .ifReg1 (.interface (t.binding d.before).interface .outTrySetRoute) ∈ op.ifs) ∧
      simulateRoute t condition d.before d.after (.routePending d.route)
          (.routeSet d.route :: extra) conflictingRoutes =
        [⟨[.ifState stInit], clearActs d⟩, ⟨[.ifReg1 .resetRoutes], resetActs d extra⟩] ++
          (requests ++ [⟨[.ifReg1 (.routePending d.route),
            .ifReg1 (.interface (.other n) .inRouteSetFailure)], refuseActs d n⟩,
          ⟨[.ifReg1 (.routePending d.route), .ifReg1 (.interface (.other n) .inRouteSetSuccess)],
            grantActs d n extra⟩]) := by
  rw [simulateRoute, hn, if_pos hreset]
  refine ⟨[_, _, _, _], ?_, rfl⟩
  simp

omit [DecidableEq S] [DecidableEq R] in
theorem calm_initialization {extra : List (Bit S R)} (hextra : ∀ var ∈ extra, var = .anyRouteSet) :
    EachAction (Action.Calm asks) ([⟨[.ifState stInit], clearActs d⟩,
      ⟨[.ifReg1 .resetRoutes], resetActs d extra⟩] : List (PieceOp S R)) := by
  have hclear : ∀ a ∈ clearActs d, a.Calm asks := by simp [clearActs, Action.Calm]
  refine .cons hclear (.cons (List.forall_mem_append.mpr ⟨hclear, ?_⟩) .nil)
  rw [List.map_cons, List.forall_mem_cons]
  refine ⟨by simp [Action.Calm], fun a ha => ?_⟩
  obtain ⟨var, hvar, rfl⟩ := List.mem_map.mp ha
  rw [hextra var hvar]
  simp [Action.Calm]

/-- The block of a direction, while the routes are reset and there is no request. -/
theorem requests_simulateRoute (hs : s.Undisturbed asks) (hreset : t.hasResetRoutes = true)
    (htry : asks (.interface (t.binding d.before).interface .outTrySetRoute))
    (hn : (t.binding d.after).interface = .other n) (hextra : ∀ var ∈ extra, var = .anyRouteSet)
    (condition : Conditions S R) :
    (s.run (simulateRoute t condition d.before d.after (.routePending d.route)
      (.routeSet d.route :: extra) conflictingRoutes)).requests =
        (s.requests.clear d).answer d n := by
  obtain ⟨requests, hrequests, heq⟩ := simulateRoute_eq d hreset hn condition
  have hcleared := hs.run (calm_initialization d hextra)
  rw [heq, Layout.run_append, Layout.run_append,
    hcleared.run_requests fun op hop => ⟨_, htry, hrequests op hop⟩, requests_answers d _ n hextra,
    requests_initialization d hs hextra]

/-- The bit may ask a piece for a route: a request of a neighbour, or a variable of the layout. -/
def Bit.MayAsk : Bit S R → Prop
  | .interface (.other _) .outTrySetRoute => True
  | .foreign _ => True
  | _ => False

omit [DecidableEq S] [DecidableEq R] in
theorem calm_simulateRoute (hreset : t.hasResetRoutes = true)
    (hasks : ∀ var, asks var → var.MayAsk) (hextra : ∀ var ∈ extra, var = .anyRouteSet)
    (condition : Conditions S R) :
    EachAction (Action.Calm asks) (simulateRoute t condition d.before d.after
      (.routePending d.route) (.routeSet d.route :: extra) conflictingRoutes) := by
  have hcalm : ∀ var : Bit S R, ¬ var.MayAsk → ¬ asks var := fun var h ha => h (hasks var ha)
  have hset : ∀ a ∈ ((.routeSet d.route :: extra).map .actReg1 : Actions S R), a.Calm asks := by
    intro a ha
    obtain ⟨var, hvar, rfl⟩ := List.mem_map.mp ha
    rcases List.mem_cons.mp hvar with rfl | hvar
    · exact hcalm _ id
    · rw [hextra var hvar]
      exact hcalm _ id
  have hfailure := hcalm (.interface (.side d.before) .inRouteSetFailure) id
  have hsuccess := hcalm (.interface (.side d.before) .inRouteSetSuccess) id
  have htry := hcalm (.interface (.side d.after) .outTrySetRoute) id
  have hlock := hcalm .tmpRouteSettingInProgress id
  have hpending := hcalm (.routePending d.route) id
  rw [simulateRoute, if_pos hreset]
  refine (calm_initialization d hextra).append ?_
  refine .cons (by simp [Action.Calm, hfailure]) (.cons (by simp [Action.Calm, hfailure])
    (.cons (by simp [Action.Calm, hlock, hpending, htry]) (.cons (by simp [Action.Calm, hfailure])
    (.cons (by simp [Action.Calm, hfailure]) (.cons (List.forall_mem_append.mpr
      ⟨by simp [Action.Calm, hsuccess], hset⟩) .nil)))))

end Directions

/-! ### Pieces -/

section Pieces

variable {S R : Type} [DecidableEq S] [DecidableEq R] {asks : Bit S R → Prop} {target : S → Nat}
  {ds : List (RouteDirection S R)}

/-- The operations are the block of the direction, as far as a reset goes. -/
structure ResetBlock (asks : Bit S R → Prop) (target : S → Nat) (d : RouteDirection S R)
    (ops : List (PieceOp S R)) : Prop where
  calm : EachAction (Action.Calm asks) ops
  requests : ∀ s : Layout (Bit S R), s.Undisturbed asks →
    (s.run ops).requests = s.requests.reset target d

/-- The blocks of all directions. -/
theorem requests_blocks {ι : Type} {direction : ι → RouteDirection S R}
    {block : ι → List (PieceOp S R)} {is : List ι}
    (hblock : ∀ i ∈ is, ResetBlock asks target (direction i) (block i)) {s : Layout (Bit S R)}
    (hs : s.Undisturbed asks) : (s.run (is.flatMap block)).requests =
      (is.map direction).foldl (RouteRequests.reset target) s.requests := by
  induction is generalizing s with
  | nil => rfl
  | cons i is ih =>
    obtain ⟨hi, hrest⟩ := List.forall_mem_cons.mp hblock
    rw [List.flatMap_cons, Layout.run_append, ih hrest (hs.run hi.calm), hi.requests s hs]
    rfl

/-- What a plugin before the routes may write: no request, but for the routes of the directions. -/
def Bit.Before (asks : Bit S R → Prop) (ds : List (RouteDirection S R)) (var : Bit S R) : Prop :=
  var ≠ .resetRoutes ∧ ¬ asks var ∧ (var.OfRequests → ∃ d ∈ ds, var = .routeSet d.route)

/-- What the initialization of the routes may write: their requests as well. -/
def Bit.Initial (asks : Bit S R → Prop) (ds : List (RouteDirection S R)) (var : Bit S R) : Prop :=
  var ≠ .resetRoutes ∧ ¬ asks var ∧
    (var.OfRequests → ∃ d ∈ ds, var = .routeSet d.route ∨ var = .routePending d.route)

omit [DecidableEq S] [DecidableEq R] in
theorem Bit.Before.initial {var : Bit S R} (h : var.Before asks ds) : var.Initial asks ds := by
  refine ⟨h.1, h.2.1, fun hvar => ?_⟩
  obtain ⟨d, hd, heq⟩ := h.2.2 hvar
  exact ⟨d, hd, .inl heq⟩

omit [DecidableEq S] [DecidableEq R] in
theorem calm_of_initial {a : Action (Bit S R) Empty} (h : a.Touches (Bit.Initial asks ds)) :
    a.Calm asks := by
  cases a with
  | actReg0 var => exact h.1
  | actReg1 var => exact h.2.1
  | _ => trivial

/-- What no direction is for stays. -/
theorem unused_run {ops : List (PieceOp S R)}
    (hops : EachAction (Action.Touches (Bit.Initial asks ds)) ops) (s : Layout (Bit S R)) :
    (s.run ops).requests.Unused ds ↔ s.requests.Unused ds := by
  have hframe := hops.agree s
  have hset : ∀ r, r ∉ ds.map (·.route) → (s.run ops).requests.set r = s.requests.set r := by
    intro r hr
    refine hframe.bits _ fun h => ?_
    obtain ⟨d, hd, heq | heq⟩ := h.2.2 trivial
    · cases heq
      exact hr (List.mem_map_of_mem hd)
    · cases heq
  have hpending : ∀ r, r ∉ ds.map (·.route) →
      (s.run ops).requests.pending r = s.requests.pending r := by
    intro r hr
    refine hframe.bits _ fun h => ?_
    obtain ⟨d, hd, heq | heq⟩ := h.2.2 trivial
    · cases heq
    · cases heq
      exact hr (List.mem_map_of_mem hd)
  have htrying : ∀ x, (s.run ops).requests.trying x = s.requests.trying x := by
    intro x
    refine hframe.bits _ fun h => ?_
    obtain ⟨d, -, heq | heq⟩ := h.2.2 trivial <;> cases heq
  constructor
  · rintro ⟨h1, h2, h3⟩
    exact ⟨fun r hr => hset r hr ▸ h1 r hr, fun r hr => hpending r hr ▸ h2 r hr,
      fun x hx => htrying x ▸ h3 x hx⟩
  · rintro ⟨h1, h2, h3⟩
    exact ⟨fun r hr => (hset r hr).trans (h1 r hr), fun r hr => (hpending r hr).trans (h2 r hr),
      fun x hx => (htrying x).trans (h3 x hx)⟩

/-- The plugins before the routes leave the requests and the answers. -/
theorem refused_run {ops : List (PieceOp S R)}
    (hops : EachAction (Action.Touches (Bit.Before asks ds)) ops) (s : Layout (Bit S R)) :
    (s.run ops).requests.Refused target ds ↔ s.requests.Refused target ds := by
  have hframe := hops.agree s
  have hpending : (s.run ops).requests.pending = s.requests.pending := by
    refine funext fun r => hframe.bits _ fun h => ?_
    obtain ⟨d, -, heq⟩ := h.2.2 trivial
    cases heq
  have hfailure : (s.run ops).requests.failure = s.requests.failure := by
    refine funext fun n => hframe.bits _ fun h => ?_
    obtain ⟨d, -, heq⟩ := h.2.2 trivial
    cases heq
  constructor
  · rintro ⟨h1, h2⟩
    rw [hpending, hfailure] at h1
    rw [hpending] at h2
    exact ⟨h1, h2⟩
  · rintro ⟨h1, h2⟩
    constructor
    · rwa [hpending, hfailure]
    · rwa [hpending]

/-- The body of a piece: what comes before its routes, their initialization, the blocks of their
directions, and what comes after them. -/
structure RouteBody (asks : Bit S R → Prop) (target : S → Nat)
    (ds : List (RouteDirection S R)) where
  before : List (PieceOp S R)
  initialization : List (PieceOp S R)
  blocks : List (PieceOp S R)
  after : List (PieceOp S R)
  before_touches : EachAction (Action.Touches (Bit.Before asks ds)) before
  initialization_touches : EachAction (Action.Touches (Bit.Initial asks ds)) initialization
  initialization_guard : ∀ op ∈ initialization, .ifState stInit ∈ op.ifs
  initialization_clears : ∀ s : Layout (Bit S R), s.state = UInt8.ofNat stInit → ∀ d ∈ ds,
    (s.run initialization).bits (.routePending d.route) = false
  blocks_reset : ∀ s : Layout (Bit S R), s.Undisturbed asks →
    (s.run blocks).requests = ds.foldl (RouteRequests.reset target) s.requests
  after_touches : EachAction (Action.Touches fun var => ¬ var.OfRequests) after

def RouteBody.ops (b : RouteBody asks target ds) : List (PieceOp S R) :=
  b.before ++ (b.initialization ++ (b.blocks ++ (b.after ++ handleInitState)))

/-- What comes after the routes leaves the requests. -/
theorem RouteBody.requests_after (b : RouteBody asks target ds) (s : Layout (Bit S R)) :
    (s.run (b.after ++ handleInitState)).requests = s.requests := by
  rw [Layout.run_append]
  have hafter : (s.run b.after).requests = s.requests :=
    Layout.requests_congr fun var hvar => (b.after_touches.agree s).bits var (not_not_intro hvar)
  rw [← hafter]
  generalize s.run b.after = u
  have hrun : u.run handleInitState = u.exec ⟨[.ifState stInit], [.actState stBase]⟩ := rfl
  rw [hrun]
  rcases u.exec_cases (⟨[.ifState stInit], [.actState stBase]⟩ : PieceOp S R) with heq | ⟨-, heq⟩
  · rw [heq]
  · rw [heq]
    rfl

/-- After the initial run nothing is pending, and in others nothing is initialized. -/
theorem RouteBody.refused_initialized (b : RouteBody asks target ds) (s : Layout (Bit S R)) :
    (s.run b.initialization).requests.Refused target ds ↔
      s.state = UInt8.ofNat stInit ∨ s.requests.Refused target ds := by
  by_cases hstate : s.state = UInt8.ofNat stInit
  · have hcleared := b.initialization_clears s hstate
    refine iff_of_true ⟨fun d hd hpending => ?_, ?_⟩ (.inl hstate)
    · cases (hcleared d hd).symm.trans hpending
    · exact List.pairwise_of_forall_mem_list fun d hd d' _ hpending =>
        absurd hpending (Bool.eq_false_iff.mp (hcleared d hd))
  · have hsame : s.run b.initialization = s :=
      s.run_keeps (I := fun t => t = s) rfl fun op hop t ht =>
        ht ▸ s.exec_of_state_ne hstate (b.initialization_guard op hop)
    rw [hsame]
    exact (or_iff_right hstate).symm

/-- A run of such a body leaves the piece idle exactly if all pending requests are refused. -/
theorem RouteBody.idle (b : RouteBody asks target ds) (hne : ds ≠ [])
    (hroutes : (ds.map (·.route)).Nodup) {s : Layout (Bit S R)} (hs : s.Undisturbed asks) :
    (s.run b.ops).requests.Idle ↔ s.requests.Unused ds ∧
      (s.state = UInt8.ofNat stInit ∨ s.requests.Refused target ds) := by
  have hbefore : EachAction (Action.Touches (Bit.Initial asks ds)) b.before :=
    b.before_touches.imp fun a ha => ha.mono fun _ => Bit.Before.initial
  have hready : ((s.run b.before).run b.initialization).Undisturbed asks :=
    (hs.run (hbefore.imp fun a => calm_of_initial)).run
      (b.initialization_touches.imp fun a => calm_of_initial)
  rw [RouteBody.ops, Layout.run_append, Layout.run_append, Layout.run_append, b.requests_after,
    b.blocks_reset _ hready, RouteRequests.idle_reset hne hroutes,
    unused_run b.initialization_touches, unused_run hbefore, b.refused_initialized,
    refused_run b.before_touches, (b.before_touches.agree s).state]

/-- `SimulateRoute` is a block. -/
theorem resetBlock_simulateRoute {t : Track S R} (hreset : t.hasResetRoutes = true)
    (hasks : ∀ var, asks var → var.MayAsk)
    (htarget : ∀ x, (t.binding x).interface = .other (target x))
    (htry : ∀ x, asks (.interface (t.binding x).interface .outTrySetRoute))
    (d : RouteDirection S R) {extra : List (Bit S R)} (hextra : ∀ var ∈ extra, var = .anyRouteSet)
    (conflictingRoutes : List (Bit S R)) (condition : Conditions S R) :
    ResetBlock asks target d (simulateRoute t condition d.before d.after (.routePending d.route)
      (.routeSet d.route :: extra) conflictingRoutes) where
  calm := calm_simulateRoute d hreset hasks hextra condition
  requests _ hs := requests_simulateRoute d hs hreset (htry _) (htarget _) hextra condition

omit [DecidableEq S] [DecidableEq R] in
/-- What `MaybeActReg` writes. -/
theorem calm_maybeActReg {signal : Option (Bit S R)}
    (hsignal : ∀ var, signal = some var → var ≠ .resetRoutes ∧ ¬ asks var) (value : Bool) :
    ∀ a ∈ maybeActReg signal value, a.Calm asks := by
  cases signal with
  | none => simp [maybeActReg]
  | some var =>
    obtain ⟨hreset, hasks⟩ := hsignal var rfl
    cases value <;> simp [maybeActReg, Action.Calm, hreset, hasks]

omit [DecidableEq S] [DecidableEq R] in
/-- `SimulateSignalFwdRoute` is a reset, what it does with requests, and `SimulateRoute`. -/
theorem simulateSignalFwdRoute_eq {t : Track S R} (hreset : t.hasResetRoutes = true)
    (hasks : ∀ var, asks var → var.MayAsk) {d : RouteDirection S R}
    (htry : asks (.interface (t.binding d.before).interface .outTrySetRoute))
    (conflictingRoutes : List (Bit S R)) {goSignal : Option (Bit S R)} {inRequestGreen : Bit S R}
    (hgreen : asks inRequestGreen)
    (hsignal : ∀ var, goSignal = some var → var ≠ .resetRoutes ∧ ¬ asks var)
    (inRouteNoStop : Bit S R) : ∃ requests : List (PieceOp S R),
      (∀ op ∈ requests, ∃ var, asks var ∧ .ifReg1 var ∈ op.ifs) ∧
      EachAction (Action.Calm asks) requests ∧
      simulateSignalFwdRoute t d.before d.after (.routePending d.route) [.routeSet d.route]
          conflictingRoutes goSignal inRequestGreen inRouteNoStop =
        [⟨[.ifState stInit], clearActs d⟩, ⟨[.ifReg1 .resetRoutes], resetActs d []⟩] ++
          (requests ++ simulateRoute t [.ifReg1 inRouteNoStop] d.before d.after
            (.routePending d.route) [.routeSet d.route] conflictingRoutes) := by
  have hcalm : ∀ var : Bit S R, ¬ var.MayAsk → ¬ asks var := fun var h ha => h (hasks var ha)
  have hfailure := hcalm (.interface (.side d.before) .inRouteSetFailure) id
  have hsuccess := hcalm (.interface (.side d.before) .inRouteSetSuccess) id
  have hout := hcalm (.interface (.side d.after) .outTrySetRoute) id
  have hlock := hcalm .tmpRouteSettingInProgress id
  have hset := hcalm (.routeSet d.route) id
  have hgreenReset : inRequestGreen ≠ .resetRoutes := by
    rintro rfl
    exact hasks _ hgreen
  have hred := calm_maybeActReg hsignal false
  have hgo := calm_maybeActReg hsignal true
  rw [simulateSignalFwdRoute, if_pos hreset]
  refine ⟨[_, _, _, _, _, _], ?_, ?_, rfl⟩
  · simp only [List.forall_mem_cons]
    exact ⟨⟨_, htry, by simp⟩, ⟨_, htry, by simp⟩, ⟨_, htry, by simp⟩, ⟨_, hgreen, by simp⟩,
      ⟨_, hgreen, by simp⟩, ⟨_, hgreen, by simp⟩, by simp⟩
  · refine .cons (by simp [Action.Calm, hfailure]) (.cons (List.forall_mem_append.mpr
      ⟨hred, by simp [Action.Calm, hsuccess]⟩) (.cons (by simp [Action.Calm, hfailure])
      (.cons (by simp [Action.Calm, hout, hlock]) (.cons (List.forall_mem_append.mpr
        ⟨by simp [Action.Calm, hgreenReset, hset], hgo⟩) (.cons (List.forall_mem_append.mpr
          ⟨by simp [Action.Calm, hgreenReset], hred⟩) .nil)))))

/-- `SimulateSignalFwdRoute` is a block: a request for green would be answered before the rest. -/
theorem resetBlock_simulateSignalFwdRoute {t : Track S R} (hreset : t.hasResetRoutes = true)
    (hasks : ∀ var, asks var → var.MayAsk)
    (htarget : ∀ x, (t.binding x).interface = .other (target x))
    (htry : ∀ x, asks (.interface (t.binding x).interface .outTrySetRoute))
    (d : RouteDirection S R) (conflictingRoutes : List (Bit S R)) {goSignal : Option (Bit S R)}
    {inRequestGreen : Bit S R} (hgreen : asks inRequestGreen)
    (hsignal : ∀ var, goSignal = some var → var ≠ .resetRoutes ∧ ¬ asks var)
    (inRouteNoStop : Bit S R) :
    ResetBlock asks target d (simulateSignalFwdRoute t d.before d.after (.routePending d.route)
      [.routeSet d.route] conflictingRoutes goSignal inRequestGreen inRouteNoStop) := by
  obtain ⟨requests, hrequests, hcalm, heq⟩ := simulateSignalFwdRoute_eq hreset hasks (htry d.before)
    conflictingRoutes hgreen hsignal inRouteNoStop
  have hnone : ∀ var ∈ ([] : List (Bit S R)), var = .anyRouteSet := by simp
  have hroute := resetBlock_simulateRoute hreset hasks htarget htry d hnone conflictingRoutes
    [.ifReg1 inRouteNoStop]
  have hfirst : EachAction (Action.Calm asks) ([⟨[.ifState stInit], clearActs d⟩,
      ⟨[.ifReg1 .resetRoutes], resetActs d []⟩] : List (PieceOp S R)) :=
    calm_initialization d hnone
  rw [heq]
  refine ⟨hfirst.append (hcalm.append hroute.calm), fun s hs => ?_⟩
  rw [Layout.run_append, Layout.run_append, (hs.run hfirst).run_requests hrequests,
    hroute.requests _ (hs.run hfirst), requests_initialization d hs hnone]
  simp [RouteRequests.reset, RouteRequests.clear]

end Pieces

end OpenmrnCue.Automata
