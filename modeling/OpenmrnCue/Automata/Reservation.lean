import OpenmrnCue.Automata.Layout
import OpenmrnCue.Automata.Track

/-! The reservation of a track piece: the routes that are set or pending, the lock and
`any_route_set`, which only the piece writes.  Each operation of `SimulateRoute` and
`PopulateAnyRouteSet` keeps at most one route, whatever the rest of the layout does to the other
variables in the meantime. -/

namespace OpenmrnCue.Automata

/-- What can hold a piece: a route that is set, or one that is pending. -/
inductive Hold (R : Type) where
  | set (r : R)
  | pending (r : R)
deriving DecidableEq, Repr

/-- What only the piece writes: the routes that are set and pending, `any_route_set`, the lock
`tmp_route_setting_in_progress`, and the state of its automaton; and `reset_routes`, which nobody
sets. -/
structure Reservation (R : Type) where
  state : UInt8
  resetRoutes : Bool
  held : Hold R → Bool
  anyRouteSet : Bool
  inProgress : Bool

namespace Reservation

variable {S R : Type} [DecidableEq R]

/-- A piece holds at most one route, and a pending one under the lock. -/
structure Exclusive (b : Reservation R) : Prop where
  one : ∀ h h', b.held h = true → b.held h' = true → h = h'
  locked : ∀ r, b.held (.pending r) = true → b.inProgress = true

/-- What holds between the operations of a piece with these routes.  Where there is an
`any_route_set`, it is at least what it says. -/
structure Settled (routes : List R) (hasAny : Bool) (b : Reservation R) : Prop
    extends b.Exclusive where
  running : b.state ≠ 0
  noReset : b.resetRoutes = false
  own : ∀ r, b.held (.set r) = true → r ∈ routes
  any : hasAny = true → ∀ r, b.held (.set r) = true → b.anyRouteSet = true

/-- The value of a bit that the reservation has. -/
def read (b : Reservation R) : Bit S R → Option Bool
  | .routeSet r => some (b.held (.set r))
  | .routePending r => some (b.held (.pending r))
  | .anyRouteSet => some b.anyRouteSet
  | .tmpRouteSettingInProgress => some b.inProgress
  | .resetRoutes => some b.resetRoutes
  | _ => none

/-- The condition can hold, as far as the reservation tells. -/
def need : Condition (Bit S R) → Reservation R → Prop
  | .ifState state, b => b.state = UInt8.ofNat state
  | .ifReg0 var, b => b.read var ≠ some true
  | .ifReg1 var, b => b.read var ≠ some false
  | _, _ => True

def hold (b : Reservation R) (h : Hold R) (value : Bool) : Reservation R :=
  { b with held := Function.update b.held h value }

/-- What a write of a bit does to the reservation. -/
def write (b : Reservation R) (var : Bit S R) (value : Bool) : Reservation R :=
  match var with
  | .routeSet r => b.hold (.set r) value
  | .routePending r => b.hold (.pending r) value
  | .anyRouteSet => { b with anyRouteSet := value }
  | .tmpRouteSettingInProgress => { b with inProgress := value }
  | .resetRoutes => { b with resetRoutes := value }
  | _ => b

/-- What an action does to the reservation. -/
def act {G : Type} : Action (Bit S R) G → Reservation R → Reservation R
  | .actReg0 var, b => b.write var false
  | .actReg1 var, b => b.write var true
  | .actState state, b => { b with state := UInt8.ofNat state }
  | _, b => b

end Reservation

/-- The reservation of a piece in a layout. -/
def Layout.reservation {S R : Type} (s : Layout (Bit S R)) : Reservation R where
  state := s.state
  resetRoutes := s.bits .resetRoutes
  held
    | .set r => s.bits (.routeSet r)
    | .pending r => s.bits (.routePending r)
  anyRouteSet := s.bits .anyRouteSet
  inProgress := s.bits .tmpRouteSettingInProgress

/-- The variables that only the piece writes, and `reset_routes`. -/
def Bit.Kept {S R : Type} : Bit S R → Prop
  | .routeSet _ => True
  | .routePending _ => True
  | .anyRouteSet => True
  | .tmpRouteSettingInProgress => True
  | .resetRoutes => True
  | _ => False

/-- A step of everything else: it may write every other variable, those of the interfaces of the
piece as well, and the accumulators. -/
structure Surroundings {S R : Type} (s s' : Layout (Bit S R)) : Prop where
  state : s'.state = s.state
  kept : ∀ var : Bit S R, var.Kept → s'.bits var = s.bits var

section View

variable {S R : Type} [DecidableEq S] [DecidableEq R]

theorem Layout.reservation_setBit (s : Layout (Bit S R)) (var : Bit S R) (value : Bool) :
    (s.setBit var value).reservation = s.reservation.write var value := by
  have hset : ∀ r : R, (s.setBit var value).bits (.routeSet r) =
      (s.reservation.write var value).held (.set r) := by
    intro r
    cases var <;> simp [setBit, Reservation.write, Reservation.hold, reservation,
      Function.update_apply]
  have hpending : ∀ r : R, (s.setBit var value).bits (.routePending r) =
      (s.reservation.write var value).held (.pending r) := by
    intro r
    cases var <;> simp [setBit, Reservation.write, Reservation.hold, reservation,
      Function.update_apply]
  have hheld : (s.setBit var value).reservation.held = (s.reservation.write var value).held := by
    funext h
    cases h with
    | set r => exact hset r
    | pending r => exact hpending r
  cases var <;> simp_all [setBit, Reservation.write, Reservation.hold, reservation]

omit [DecidableEq S] [DecidableEq R] in
theorem Surroundings.reservation {s s' : Layout (Bit S R)} (h : Surroundings s s') :
    s'.reservation = s.reservation := by
  unfold Layout.reservation
  congr 1
  · exact h.state
  · exact h.kept _ trivial
  · funext hold
    cases hold with
    | set r => exact h.kept (.routeSet r) trivial
    | pending r => exact h.kept (.routePending r) trivial
  · exact h.kept _ trivial
  · exact h.kept _ trivial

omit [DecidableEq S] [DecidableEq R] in
theorem Layout.reservation_read {s : Layout (Bit S R)} {var : Bit S R} {value : Bool}
    (h : s.reservation.read var = some value) : s.bits var = value := by
  cases var <;> first | exact Option.some.inj h | cases h

omit [DecidableEq S] [DecidableEq R] in
theorem Reservation.need_of_test {c : Condition (Bit S R)} {s : Layout (Bit S R)}
    (h : Layout.test c s = true) : Reservation.need c s.reservation := by
  cases c with
  | ifState state => exact beq_iff_eq.mp h
  | ifReg0 var =>
    intro hread
    simp [Layout.test, Layout.reservation_read hread] at h
  | ifReg1 var =>
    intro hread
    simp [Layout.test, Layout.reservation_read hread] at h
  | _ => trivial

/-- The reservation is what the surroundings of a piece leave alone. -/
def reservationView : Interference.View (Layout.semantics (G := Empty))
    (Surroundings (S := S) (R := R)) (Reservation R) where
  view := Layout.reservation
  need := Reservation.need
  act := Reservation.act
  view_rely h := h.reservation
  need_of_holds h := Reservation.need_of_test h
  view_apply a s := by
    cases a <;> first | exact s.reservation_setBit _ _ | rfl

end View

/-! ## What operations keep -/

section Checks

open Interference

variable {S R : Type} [DecidableEq R] {routes : List R} {hasAny : Bool}

/-- The operation keeps the reservation settled, and exclusive at each of its actions. -/
def Checked (routes : List R) (hasAny : Bool) (op : PieceOp S R) : Prop :=
  ∀ b, Reservation.Settled routes hasAny b →
    (∀ c ∈ op.ifs, Reservation.need c b) →
    Keeps Reservation.act Reservation.Exclusive (Reservation.Settled routes hasAny) op.acts b

/-- An action that writes no variable of the reservation, or that gives up a route. -/
def Action.Mild : Action (Bit S R) Empty → Prop
  | .actReg0 (.routeSet _) => True
  | .actReg0 var => ¬ var.Kept
  | .actReg1 var => ¬ var.Kept
  | .actState _ => False
  | _ => True

omit [DecidableEq R] in
theorem mild_actReg0 {var : Bit S R} (h : ¬ var.Kept) :
    (Action.actReg0 var : Action (Bit S R) Empty).Mild := by
  cases var <;> first | exact h | exact absurd trivial h

namespace Reservation

variable {b : Reservation R}

theorem write_of_not_kept {var : Bit S R} (h : ¬ var.Kept) (value : Bool) :
    b.write var value = b := by
  cases var <;> first | rfl | exact absurd trivial h

@[simp] theorem held_hold_self {h : Hold R} {value : Bool} : (b.hold h value).held h = value := by
  simp [hold]

theorem held_hold_of_ne {h h' : Hold R} {value : Bool} (hne : h' ≠ h) :
    (b.hold h value).held h' = b.held h' := by
  simp [hold, hne]

theorem hold_false_cases {h h' : Hold R} (hheld : (b.hold h false).held h' = true) :
    b.held h' = true ∧ h' ≠ h := by
  by_cases heq : h' = h
  · subst heq
    simp at hheld
  · exact ⟨held_hold_of_ne heq ▸ hheld, heq⟩

/-- Nothing holds the piece. -/
def Free (b : Reservation R) : Prop := ∀ h, b.held h = false

theorem Free.hold_true (hfree : b.Free) {h h' : Hold R} (hheld : (b.hold h true).held h' = true) :
    h' = h := by
  by_contra hne
  rw [held_hold_of_ne hne, hfree h'] at hheld
  cases hheld

omit [DecidableEq R] in
theorem Free.exclusive (hfree : b.Free) : b.Exclusive where
  one h _ hheld := by rw [hfree h] at hheld; cases hheld
  locked r hheld := by rw [hfree (.pending r)] at hheld; cases hheld

/-- A piece may give up a route at any time. -/
theorem Settled.giveUp (h : b.Settled routes hasAny) (r : R) :
    (b.hold (.set r) false).Settled routes hasAny where
  one _ _ h1 h2 := h.one _ _ (hold_false_cases h1).1 (hold_false_cases h2).1
  locked _ hpending := h.locked _ (hold_false_cases hpending).1
  running := h.running
  noReset := h.noReset
  own _ hset := h.own _ (hold_false_cases hset).1
  any hany _ hset := h.any hany _ (hold_false_cases hset).1

omit [DecidableEq R] in
/-- A piece without a route that is set and without the lock is free. -/
theorem Settled.free (h : b.Settled routes hasAny) (hset : ∀ r, b.held (.set r) = false)
    (hlock : b.inProgress = false) : b.Free := by
  intro hold
  cases hold with
  | set r => exact hset r
  | pending r =>
    by_contra hpending
    rw [h.locked r (by simpa using hpending)] at hlock
    cases hlock

omit [DecidableEq R] in
/-- A piece takes the lock. -/
theorem Settled.lock (h : b.Settled routes hasAny) :
    ({ b with inProgress := true } : Reservation R).Settled routes hasAny :=
  { h with locked := fun _ _ => rfl }

/-- A free piece under the lock gets a pending route. -/
theorem Settled.propagate (h : b.Settled routes hasAny) (hfree : b.Free)
    (hlock : b.inProgress = true) (r : R) : (b.hold (.pending r) true).Settled routes hasAny where
  one _ _ h1 h2 := (hfree.hold_true h1).trans (hfree.hold_true h2).symm
  locked _ _ := hlock
  running := h.running
  noReset := h.noReset
  own r' hset := by cases hfree.hold_true hset
  any _ r' hset := by cases hfree.hold_true hset

/-- The answer to a pending route leaves the piece free. -/
theorem Settled.answered (h : b.Settled routes hasAny) {r : R}
    (hpending : b.held (.pending r) = true) :
    (b.hold (.pending r) false).Free := by
  intro hold
  by_contra hheld
  obtain ⟨hheld, hne⟩ := hold_false_cases (by simpa using hheld)
  exact hne (h.one _ _ hheld hpending)

omit [DecidableEq R] in
/-- A free piece is settled. -/
theorem Settled.of_free {b' : Reservation R} (h : b.Settled routes hasAny) (hfree : b'.Free)
    (hstate : b'.state = b.state) (hreset : b'.resetRoutes = b.resetRoutes) :
    b'.Settled routes hasAny where
  toExclusive := hfree.exclusive
  running := hstate ▸ h.running
  noReset := hreset ▸ h.noReset
  own r hset := by rw [hfree (.set r)] at hset; cases hset
  any _ r hset := by rw [hfree (.set r)] at hset; cases hset

/-- A free piece sets a route. -/
theorem Free.exclusive_set (hfree : b.Free) (r : R) : (b.hold (.set r) true).Exclusive where
  one _ _ h1 h2 := (hfree.hold_true h1).trans (hfree.hold_true h2).symm
  locked _ hpending := by cases hfree.hold_true hpending

theorem Settled.obtain (h : b.Settled routes hasAny) (hfree : b.Free) {r : R} (hr : r ∈ routes)
    {any : Bool} (hany : hasAny = true → any = true) :
    ({ b.hold (.set r) true with anyRouteSet := any } : Reservation R).Settled routes hasAny where
  one := (hfree.exclusive_set r).one
  locked := (hfree.exclusive_set r).locked
  running := h.running
  noReset := h.noReset
  own r' hset := by cases hfree.hold_true hset; exact hr
  any hhas _ _ := hany hhas

theorem Settled.mild {a : Action (Bit S R) Empty} (ha : a.Mild) (h : b.Settled routes hasAny) :
    (act a b).Settled routes hasAny := by
  cases a with
  | actReg0 var =>
    by_cases hkept : var.Kept
    · cases var with
      | routeSet r => exact h.giveUp r
      | _ => exact absurd hkept ha
    · rwa [act, write_of_not_kept hkept]
  | actReg1 var => rwa [act, write_of_not_kept ha]
  | actState state => exact absurd ha id
  | _ => exact h

end Reservation

/-- Operations with mild actions only. -/
theorem checked_mild {op : PieceOp S R} (h : ∀ a ∈ op.acts, a.Mild) : Checked routes hasAny op :=
  fun _ hb _ => keeps_of_each (fun _ hb => hb.toExclusive) (fun a ha _ hb => hb.mild (h a ha)) hb

/-- The operations of `StInit` are carried out in no other state. -/
theorem checked_stInit {op : PieceOp S R} (h : .ifState stInit ∈ op.ifs) :
    Checked routes hasAny op :=
  fun _ hb hneed => absurd (hneed _ h) hb.running

/-- The operations for `reset_routes` are not carried out. -/
theorem checked_reset {op : PieceOp S R} (h : .ifReg1 .resetRoutes ∈ op.ifs) :
    Checked routes hasAny op :=
  fun _ hb hneed => absurd (congrArg some hb.noReset) (hneed _ h)

/-- The operation that propagates a request. -/
theorem checked_propagate {ifs : Conditions S R} (hlock : .ifReg0 .tmpRouteSettingInProgress ∈ ifs)
    (hset : ∀ b : Reservation R, b.Settled routes hasAny → (∀ c ∈ ifs, Reservation.need c b) →
      ∀ r, b.held (.set r) = false) {r : R} {v1 v2 v3 v4 : Bit S R} (h1 : ¬ v1.Kept)
    (h2 : ¬ v2.Kept) (h3 : ¬ v3.Kept) (h4 : ¬ v4.Kept) :
    Checked routes hasAny ⟨ifs, [.actReg1 .tmpRouteSettingInProgress, .actReg1 (.routePending r),
      .actReg0 v1, .actReg0 v2, .actReg0 v3, .actReg1 v4]⟩ := by
  intro b hb hneed
  have hunlocked : b.inProgress = false := by
    simpa [Reservation.need, Reservation.read] using hneed _ hlock
  have hfree : b.Free := hb.free (hset b hb hneed) hunlocked
  have hlocked := hb.lock
  have hpending := hlocked.propagate hfree rfl r
  simp only [keeps_cons, keeps_nil, Reservation.act, Reservation.write_of_not_kept h1,
    Reservation.write_of_not_kept h2, Reservation.write_of_not_kept h3,
    Reservation.write_of_not_kept h4]
  exact ⟨hb.toExclusive, hlocked.toExclusive, hpending.toExclusive, hpending.toExclusive,
    hpending.toExclusive, hpending.toExclusive, hpending⟩

/-- The operation for an answer that refuses the request. -/
theorem checked_failure {ifs : Conditions S R} {r : R} (hpending : .ifReg1 (.routePending r) ∈ ifs)
    {v1 v2 v3 v4 : Bit S R} (h1 : ¬ v1.Kept) (h2 : ¬ v2.Kept) (h3 : ¬ v3.Kept) (h4 : ¬ v4.Kept) :
    Checked routes hasAny ⟨ifs, [.actReg0 (.routePending r), .actReg0 v1, .actReg0 v2,
      .actReg0 .tmpRouteSettingInProgress, .actReg0 v3, .actReg1 v4]⟩ := by
  intro b hb hneed
  have hheld : b.held (.pending r) = true := by
    simpa [Reservation.need, Reservation.read] using hneed _ hpending
  have hfree := hb.answered hheld
  have hsettled : ({ b.hold (.pending r) false with inProgress := false } :
      Reservation R).Settled routes hasAny := hb.of_free hfree rfl rfl
  simp only [keeps_cons, keeps_nil, Reservation.act, Reservation.write_of_not_kept h1,
    Reservation.write_of_not_kept h2, Reservation.write_of_not_kept h3,
    Reservation.write_of_not_kept h4]
  exact ⟨hb.toExclusive, hfree.exclusive, hfree.exclusive, hfree.exclusive,
    hsettled.toExclusive, hsettled.toExclusive, hsettled⟩

/-- The variables of `current_route`. -/
def currentRoute (hasAny : Bool) (r : R) : List (Bit S R) :=
  .routeSet r :: if hasAny then [.anyRouteSet] else []

/-- The operation for an answer that grants the request. -/
theorem checked_success {ifs : Conditions S R} {r : R} (hr : r ∈ routes)
    (hpending : .ifReg1 (.routePending r) ∈ ifs) {v1 v2 v3 v4 : Bit S R} (h1 : ¬ v1.Kept)
    (h2 : ¬ v2.Kept) (h3 : ¬ v3.Kept) (h4 : ¬ v4.Kept) :
    Checked routes hasAny ⟨ifs, [.actReg0 (.routePending r), .actReg0 v1, .actReg0 v2,
      .actReg0 .tmpRouteSettingInProgress, .actReg0 v3, .actReg1 v4] ++
      (currentRoute hasAny r).map .actReg1⟩ := by
  intro b hb hneed
  have hheld : b.held (.pending r) = true := by
    simpa [Reservation.need, Reservation.read] using hneed _ hpending
  have hfree := hb.answered hheld
  have hsettled : ({ b.hold (.pending r) false with inProgress := false } :
      Reservation R).Settled routes hasAny := hb.of_free hfree rfl rfl
  have hset := hfree.exclusive_set r
  have hobtained : ∀ any, (hasAny = true → any = true) →
      ({ ({ b.hold (.pending r) false with inProgress := false } : Reservation R).hold (.set r) true
        with anyRouteSet := any } : Reservation R).Settled routes hasAny :=
    fun any hany => hsettled.obtain hfree hr hany
  cases hasAny with
  | false =>
    simp only [currentRoute, List.cons_append, List.nil_append, List.map_cons, keeps_cons,
      Reservation.act, Reservation.write_of_not_kept h1, Reservation.write_of_not_kept h2,
      Reservation.write_of_not_kept h3, Reservation.write_of_not_kept h4]
    exact ⟨hb.toExclusive, hfree.exclusive, hfree.exclusive, hfree.exclusive,
      hsettled.toExclusive, hsettled.toExclusive, hsettled.toExclusive,
      hobtained b.anyRouteSet (by simp)⟩
  | true =>
    simp only [currentRoute, List.cons_append, List.nil_append, List.map_cons, List.map_nil,
      if_true, keeps_cons, keeps_nil, Reservation.act, Reservation.write_of_not_kept h1,
      Reservation.write_of_not_kept h2, Reservation.write_of_not_kept h3,
      Reservation.write_of_not_kept h4]
    exact ⟨hb.toExclusive, hfree.exclusive, hfree.exclusive, hfree.exclusive,
      hsettled.toExclusive, hsettled.toExclusive, hsettled.toExclusive,
      ⟨hset.one, fun _ h => absurd (hfree.hold_true h) (by simp)⟩, hobtained true (fun _ => rfl)⟩

/-- Nothing is set where the conditions of `SimulateRoute` on the routes hold. -/
theorem Reservation.Settled.unset {b : Reservation R} (hb : b.Settled routes hasAny) {r : R}
    {conflicting : List (Bit S R)}
    (hconflicting : hasAny = false → ∀ r' ∈ routes, r' ≠ r → .routeSet r' ∈ conflicting)
    (hcurrent : ∀ var ∈ currentRoute (S := S) hasAny r, b.read var ≠ some true)
    (hothers : ∀ var ∈ conflicting, b.read var ≠ some true) (r' : R) :
    b.held (.set r') = false := by
  by_contra hheld
  have hset : b.held (.set r') = true := by simpa using hheld
  cases hasAny with
  | true =>
    exact hcurrent .anyRouteSet (by simp [currentRoute]) (congrArg some (hb.any rfl r' hset))
  | false =>
    by_cases hsame : r' = r
    · exact hcurrent (.routeSet r') (by simp [currentRoute, hsame]) (congrArg some hset)
    · exact hothers _ (hconflicting rfl r' (hb.own r' hset) hsame) (congrArg some hset)

/-- The operations of `SimulateRoute`, where the routes of the piece are in conflict or there is an
`any_route_set`. -/
theorem checked_simulateRoute (t : Track S R) (condition : Conditions S R) (before after : S)
    {r : R} (hr : r ∈ routes) {conflicting : List (Bit S R)}
    (hconflicting : hasAny = false → ∀ r' ∈ routes, r' ≠ r → .routeSet r' ∈ conflicting) :
    ∀ op ∈ simulateRoute t condition before after (.routePending r) (currentRoute hasAny r)
      conflicting, Checked routes hasAny op := by
  have hreject : ∀ ifs : Conditions S R, Checked routes hasAny
      ⟨ifs, [.actReg1 (.interface (.side before) .inRouteSetFailure),
        .actReg0 (.interface (.side before) .inRouteSetSuccess),
        .actReg0 (.interface (t.binding before).interface .outTrySetRoute)]⟩ := by
    intro ifs
    refine checked_mild fun a ha => ?_
    simp only [List.mem_cons, List.not_mem_nil, or_false] at ha
    rcases ha with rfl | rfl | rfl <;> exact id
  intro op hop
  simp only [simulateRoute, List.mem_append, List.mem_cons, List.not_mem_nil, or_false] at hop
  rcases hop with (rfl | hop) | rfl | rfl | rfl | rfl | rfl | rfl
  · exact checked_stInit (by simp)
  · split at hop
    · rw [List.mem_singleton.mp hop]
      exact checked_reset (by simp)
    · cases hop
  · exact hreject _
  · exact hreject _
  · refine checked_propagate (by simp) (fun b hb hneed => ?_) id id id id
    refine hb.unset hconflicting (fun var hvar => ?_) fun var hvar => ?_
    · exact hneed (.ifReg0 var) (by simp [hvar])
    · exact hneed (.ifReg0 var) (by simp [hvar])
  · exact hreject _
  · exact checked_failure (by simp) id id id id
  · exact checked_success hr (by simp) id id id id

/-- The operations of `PopulateAnyRouteSet`. -/
theorem checked_populateAnyRouteSet :
    ∀ op ∈ populateAnyRouteSet (S := S) routes, Checked routes hasAny op := by
  intro op hop
  rcases List.mem_cons.mp hop with rfl | hop
  · intro b hb hneed
    have hunset : ∀ r, b.held (.set r) ≠ true := by
      intro r hset
      exact hneed (.ifReg0 (.routeSet r)) (List.mem_map_of_mem (hb.own r hset))
        (congrArg some hset)
    exact ⟨hb.toExclusive, { hb with any := fun _ r hset => absurd hset (hunset r) }⟩
  · obtain ⟨r, -, rfl⟩ := List.mem_map.mp hop
    exact fun b hb _ => ⟨hb.toExclusive, { hb with any := fun _ _ _ => rfl }⟩

end Checks

end OpenmrnCue.Automata
