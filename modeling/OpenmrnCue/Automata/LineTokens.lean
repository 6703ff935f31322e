import OpenmrnCue.Library.TokenLine
import OpenmrnCue.Automata.Line
import OpenmrnCue.Automata.RouteExclusion

/-! The automata of a line pass requests along: each operation of each piece is a step of a line of
tokens in both directions.  The operations of the straight tracks keep their reservations, which is
why a straight track passes a request on only while none of its own is pending. -/

namespace OpenmrnCue.Automata

/-! ## Tokens -/

namespace StraightRoute

/-- The side where a request comes in. -/
def entry : StraightRoute → Side
  | ab => .a
  | ba => .b

/-- The side where it goes out. -/
def exit : StraightRoute → Side
  | ab => .b
  | ba => .a

/-- The number of the next piece. -/
def ahead : StraightRoute → ℤ ≃ ℤ
  | ab => ⟨(· + 1), (· - 1), fun i => Int.add_sub_cancel i 1, fun i => Int.sub_add_cancel i 1⟩
  | ba => ⟨(· - 1), (· + 1), fun i => Int.sub_add_cancel i 1, fun i => Int.add_sub_cancel i 1⟩

theorem ahead_ne (r : StraightRoute) (i : ℤ) : r.ahead i ≠ i := by
  cases r <;> simp [ahead]

end StraightRoute

/-- What a variable is for the requests of a direction. -/
def LineBit.slot (r : StraightRoute) : LineBit → Option (Tokens.Slot ℤ)
  | .interface (i, side) .outTrySetRoute => if side = r.exit then some (.request i) else none
  | .interface (i, side) .inRouteSetSuccess => if side = r.entry then some (.success i) else none
  | .interface (i, side) .inRouteSetFailure => if side = r.entry then some (.failure i) else none
  | .piece i (.routePending r') => if r' = r then some (.pending i) else none
  | .piece i (.routeSet r') => if r' = r then some (.granted i) else none
  | _ => none

/-- What an action writes of them. -/
def Action.tokenWrites (r : StraightRoute) :
    Action LineBit Empty → List (Tokens.Slot ℤ × Bool)
  | .actReg0 var => (var.slot r).toList.map (·, false)
  | .actReg1 var => (var.slot r).toList.map (·, true)
  | _ => []

namespace LineState

variable (s : LineState)

/-- The requests and answers of a direction. -/
def tokens (r : StraightRoute) : Tokens ℤ where
  request i := s.bits (.interface (i, r.exit) .outTrySetRoute)
  pending i := s.bits (.piece i (.routePending r))
  success i := s.bits (.interface (i, r.entry) .inRouteSetSuccess)
  failure i := s.bits (.interface (i, r.entry) .inRouteSetFailure)
  granted i := s.bits (.piece i (.routeSet r))

/-- The reservation of a piece. -/
def reservation (i : ℤ) : Reservation StraightRoute where
  state := s.state i
  resetRoutes := s.bits .resetRoutes
  held
    | .set r => s.bits (.piece i (.routeSet r))
    | .pending r => s.bits (.piece i (.routePending r))
  anyRouteSet := s.bits (.piece i .anyRouteSet)
  inProgress := s.bits (.piece i .tmpRouteSettingInProgress)

end LineState

/-- The variable of a piece of the line. -/
def lineBit (i : ℤ) : Bit Side StraightRoute → LineBit := resolve i (i - 1, .b) (i + 1, .a)

abbrev StraightAction := Action (Bit Side StraightRoute) Empty

/-- The operation of a piece of the line. -/
def lineOp (i : ℤ) (op : PieceOp Side StraightRoute) : Op LineBit Empty := op.map (lineBit i)

section Views

variable {s : LineState} {i j : ℤ} {r : StraightRoute}

theorem tokens_update (s : LineState) (r : StraightRoute) (var : LineBit) (b : Bool) :
    ({ s with bits := Function.update s.bits var b } : LineState).tokens r =
      (s.tokens r).writes ((var.slot r).toList.map (·, b)) := by
  cases var with
  | interface place v =>
    obtain ⟨k, side⟩ := place
    cases r <;> cases side <;> cases v <;>
      ext n <;> simp [LineState.tokens, LineBit.slot, Tokens.writes, Tokens.write,
        StraightRoute.entry, StraightRoute.exit, Function.update_apply]
  | piece k var =>
    cases var with
    | routeSet r' =>
      cases r <;> cases r' <;>
        ext n <;> simp [LineState.tokens, LineBit.slot, Tokens.writes, Tokens.write,
          Function.update_apply]
    | routePending r' =>
      cases r <;> cases r' <;>
        ext n <;> simp [LineState.tokens, LineBit.slot, Tokens.writes, Tokens.write,
          Function.update_apply]
    | _ => ext n <;> simp [LineState.tokens, LineBit.slot, Tokens.writes]
  | _ => ext n <;> simp [LineState.tokens, LineBit.slot, Tokens.writes]

/-- An action writes its tokens. -/
theorem tokens_perform (s : LineState) (i : ℤ) (a : Action LineBit Empty) (r : StraightRoute) :
    (s.perform i a).tokens r = (s.tokens r).writes (a.tokenWrites r) := by
  cases a with
  | actReg0 var => exact tokens_update s r var false
  | actReg1 var => exact tokens_update s r var true
  | _ => rfl

theorem store_setBit (s : LineState) (i : ℤ) (var : LineBit) (b : Bool) :
    s.store i ((s.layout i).setBit var b) =
      { s with bits := Function.update s.bits var b } := by
  simp [LineState.store, LineState.layout, Layout.setBit]

theorem lineBit_interface (i : ℤ) (place : CtrlTrackInterface Side) (v : InterfaceVariable) :
    ∃ k side, lineBit i (.interface place v) = .interface (k, side) v := by
  cases place with
  | side side => exact ⟨_, _, rfl⟩
  | other n => cases n <;> exact ⟨_, _, rfl⟩

theorem reservation_update (s : LineState) (i : ℤ) (var : Bit Side StraightRoute) (b : Bool) :
    ({ s with bits := Function.update s.bits (lineBit i var) b } : LineState).reservation i =
      (s.reservation i).write var b := by
  cases var with
  | interface place v =>
    obtain ⟨k, side, heq⟩ := lineBit_interface i place v
    rw [heq]
    simp [LineState.reservation, Reservation.write]
  | routeSet r =>
    simp only [LineState.reservation, Reservation.write, Reservation.hold, lineBit, resolve]
    congr 1
    · funext h
      cases h <;> simp [Function.update_apply]
    · simp
    · simp
  | routePending r =>
    simp only [LineState.reservation, Reservation.write, Reservation.hold, lineBit, resolve]
    congr 1
    · funext h
      cases h <;> simp [Function.update_apply]
    · simp
    · simp
  | _ => simp [LineState.reservation, Reservation.write, lineBit, resolve]

theorem reservation_update_other (s : LineState) {i j : ℤ} (hj : j ≠ i)
    {var : Bit Side StraightRoute} (hvar : var ≠ .resetRoutes) (b : Bool) :
    ({ s with bits := Function.update s.bits (lineBit i var) b } : LineState).reservation j =
      s.reservation j := by
  have hother : ∀ own, lineBit i var ≠ .piece j own := by
    intro own heq
    cases var with
    | interface place v =>
      obtain ⟨k, side, heq'⟩ := lineBit_interface i place v
      rw [heq'] at heq
      cases heq
    | foreign n => cases heq
    | resetRoutes => cases heq
    | _ =>
      obtain ⟨rfl, -⟩ := LineBit.piece.inj heq
      exact hj rfl
  have hreset : lineBit i var ≠ .resetRoutes := by
    cases var with
    | interface place v =>
      obtain ⟨k, side, heq'⟩ := lineBit_interface i place v
      rw [heq']
      exact LineBit.noConfusion
    | resetRoutes => exact absurd rfl hvar
    | _ => exact LineBit.noConfusion
  simp [LineState.reservation, Function.update_of_ne (hother _).symm,
    Function.update_of_ne hreset.symm]

/-- An action that leaves the state of the automaton and `reset_routes` alone. -/
def Action.Plain : StraightAction → Prop
  | .actReg0 var => var ≠ .resetRoutes
  | .actReg1 var => var ≠ .resetRoutes
  | .actState _ => False
  | _ => True

/-- The reservation of the piece that acts. -/
theorem reservation_perform (s : LineState) (i : ℤ) (a : StraightAction) :
    (s.perform i (a.map (lineBit i))).reservation i = Reservation.act a (s.reservation i) := by
  cases a with
  | actReg0 var =>
    have heq : s.perform i (.actReg0 (lineBit i var)) = _ := store_setBit s i _ false
    rw [Action.map, heq]
    exact reservation_update s i var false
  | actReg1 var =>
    have heq : s.perform i (.actReg1 (lineBit i var)) = _ := store_setBit s i _ true
    rw [Action.map, heq]
    exact reservation_update s i var true
  | actState state =>
    simp [Action.map, LineState.perform, LineState.store, LineState.layout, Layout.perform,
      LineState.reservation, Reservation.act]
  | _ =>
    simp [Action.map, LineState.perform, LineState.store, LineState.layout, Layout.perform,
      LineState.reservation, Reservation.act, Layout.setValue]

/-- The reservations of the other pieces. -/
theorem reservation_perform_other (s : LineState) {i j : ℤ} (hj : j ≠ i)
    {a : StraightAction} (ha : a.Plain) :
    (s.perform i (a.map (lineBit i))).reservation j = s.reservation j := by
  cases a with
  | actReg0 var =>
    have heq : s.perform i (.actReg0 (lineBit i var)) = _ := store_setBit s i _ false
    rw [Action.map, heq]
    exact reservation_update_other s hj ha false
  | actReg1 var =>
    have heq : s.perform i (.actReg1 (lineBit i var)) = _ := store_setBit s i _ true
    rw [Action.map, heq]
    exact reservation_update_other s hj ha true
  | actState state => exact absurd ha id
  | _ =>
    simp [Action.map, LineState.perform, LineState.store, LineState.layout, Layout.perform,
      LineState.reservation, Layout.setValue]

theorem Action.Plain.act {a : StraightAction} (ha : a.Plain)
    (b : Reservation StraightRoute) :
    (Reservation.act a b).state = b.state ∧ (Reservation.act a b).resetRoutes = b.resetRoutes := by
  cases a with
  | actReg0 var =>
    cases var with
    | resetRoutes => exact absurd rfl ha
    | _ => exact ⟨rfl, rfl⟩
  | actReg1 var =>
    cases var with
    | resetRoutes => exact absurd rfl ha
    | _ => exact ⟨rfl, rfl⟩
  | actState state => exact absurd ha id
  | _ => exact ⟨rfl, rfl⟩

/-- Only a piece itself sets its simulated occupancy. -/
theorem simulatedOccupancy_perform (s : LineState) (i j : ℤ)
    {a : StraightAction} (ha : a ≠ .actReg1 .simulatedOccupancy)
    (h : s.bits (.piece j .simulatedOccupancy) = false) :
    (s.perform i (a.map (lineBit i))).bits (.piece j .simulatedOccupancy) = false := by
  cases a with
  | actReg0 var =>
    have heq : (s.perform i (.actReg0 (lineBit i var))).bits = Function.update s.bits _ false := rfl
    rw [Action.map, heq]
    by_cases hvar : lineBit i var = .piece j .simulatedOccupancy
    · simp [hvar]
    · rwa [Function.update_of_ne (Ne.symm hvar)]
  | actReg1 var =>
    have hvar : lineBit i var ≠ .piece j .simulatedOccupancy := by
      intro heq
      cases var with
      | interface place v =>
        obtain ⟨k, side, heq'⟩ := lineBit_interface i place v
        rw [heq'] at heq
        cases heq
      | simulatedOccupancy => exact ha rfl
      | _ => cases heq
    have heq : (s.perform i (.actReg1 (lineBit i var))).bits = Function.update s.bits _ true := rfl
    rwa [Action.map, heq, Function.update_of_ne (Ne.symm hvar)]
  | _ => exact h

end Views

/-! ## Actions in a row -/

section Actions

variable {s : LineState} {i j : ℤ} {r : StraightRoute}

/-- The actions of an operation of a piece. -/
def LineState.performs (s : LineState) (i : ℤ) (acts : Actions Side StraightRoute) :
    LineState :=
  (acts.map (·.map (lineBit i))).foldl (fun s a => s.perform i a) s

/-- What they write of the tokens. -/
def tokenWrites (i : ℤ) (r : StraightRoute) (acts : Actions Side StraightRoute) :
    List (Tokens.Slot ℤ × Bool) :=
  acts.flatMap fun a => (a.map (lineBit i)).tokenWrites r

theorem tokens_performs (s : LineState) (i : ℤ) (r : StraightRoute)
    (acts : Actions Side StraightRoute) :
    (s.performs i acts).tokens r = (s.tokens r).writes (tokenWrites i r acts) := by
  induction acts generalizing s with
  | nil => rfl
  | cons a acts ih =>
    have hrest := ih (s.perform i (a.map (lineBit i)))
    rw [tokens_perform] at hrest
    rw [show s.performs i (a :: acts) = (s.perform i (a.map (lineBit i))).performs i acts from rfl,
      hrest]
    simp [Tokens.writes, tokenWrites]

theorem reservation_performs (s : LineState) (i : ℤ)
    (acts : Actions Side StraightRoute) :
    (s.performs i acts).reservation i =
      acts.foldl (fun b a => Reservation.act a b) (s.reservation i) := by
  induction acts generalizing s with
  | nil => rfl
  | cons a acts ih =>
    have hrest := ih (s.perform i (a.map (lineBit i)))
    rwa [reservation_perform] at hrest

theorem reservation_performs_other (s : LineState) (hj : j ≠ i)
    {acts : Actions Side StraightRoute} (hacts : ∀ a ∈ acts, a.Plain) :
    (s.performs i acts).reservation j = s.reservation j := by
  induction acts generalizing s with
  | nil => rfl
  | cons a acts ih =>
    have hrest := ih (s.perform i (a.map (lineBit i)))
      fun a' ha' => hacts a' (List.mem_cons_of_mem _ ha')
    rwa [reservation_perform_other s hj (hacts a List.mem_cons_self)] at hrest

/-- All automata keep their states, and `reset_routes` stays as it is. -/
theorem registers_performs (s : LineState) (i j : ℤ)
    {acts : Actions Side StraightRoute} (hacts : ∀ a ∈ acts, a.Plain) :
    (s.performs i acts).state j = s.state j ∧
      (s.performs i acts).bits .resetRoutes = s.bits .resetRoutes := by
  by_cases hj : j = i
  · subst hj
    have hfold : ∀ b : Reservation StraightRoute,
        (acts.foldl (fun b a => Reservation.act a b) b).state = b.state ∧
        (acts.foldl (fun b a => Reservation.act a b) b).resetRoutes = b.resetRoutes := by
      induction acts with
      | nil => exact fun b => ⟨rfl, rfl⟩
      | cons a acts ih =>
        intro b
        obtain ⟨hstate, hreset⟩ := ih (fun a' ha' => hacts a' (List.mem_cons_of_mem _ ha'))
          (Reservation.act a b)
        obtain ⟨hstate', hreset'⟩ := (hacts a List.mem_cons_self).act b
        exact ⟨hstate.trans hstate', hreset.trans hreset'⟩
    have heq := reservation_performs s j acts
    obtain ⟨hstate, hreset⟩ := hfold (s.reservation j)
    rw [← heq] at hstate hreset
    exact ⟨hstate, hreset⟩
  · have heq := reservation_performs_other s hj hacts
    exact ⟨congrArg (·.state) heq, congrArg (·.resetRoutes) heq⟩

theorem simulatedOccupancy_performs (s : LineState) (i j : ℤ)
    {acts : Actions Side StraightRoute}
    (hacts : ∀ a ∈ acts, a ≠ .actReg1 .simulatedOccupancy)
    (h : s.bits (.piece j .simulatedOccupancy) = false) :
    (s.performs i acts).bits (.piece j .simulatedOccupancy) = false := by
  induction acts generalizing s with
  | nil => exact h
  | cons a acts ih =>
    exact ih (s.perform i (a.map (lineBit i)))
      (fun a' ha' => hacts a' (List.mem_cons_of_mem _ ha'))
      (simulatedOccupancy_perform s i j (hacts a List.mem_cons_self) h)

end Actions

end OpenmrnCue.Automata
