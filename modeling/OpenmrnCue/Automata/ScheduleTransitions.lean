import Mathlib.Data.List.Perm.Subperm
import Mathlib.Tactic.MkIffOfInductiveProp
import OpenmrnCue.Automata.SchedulePermaloc

/-! What the operations of a transition that is not eager do.  Wherever the train is, they find
bound what they use: the routingloc follows the permaloc of the source, and behind it stand all uses
of what is only imported at the train's block.  Where the train is at the source, the transition
goes ahead, gives up, moves the train or ends a failed attempt. -/

namespace OpenmrnCue.TrainSchedule

open LateBinding Local

variable {X : Type} [DecidableEq X] {s s' u : TrainState X}

/-! ## Conditions and tests -/

/-- What a list of conditions on variables says. -/
def holdsAll (condition : List (X × Bool)) (s : TrainState X) : Bool :=
  condition.all fun p => s.bits (.layout p.1) == p.2

/-- The lock is free, or there is none. -/
def lockIsFree (lock : Option X) (s : TrainState X) : Bool :=
  lock.all fun v => !s.bits (.layout v)

namespace Transition

variable (t : Transition X)

/-- What the transition tests before it asks for the permit. -/
def tests (s : TrainState X) : Bool :=
  s.bits (.layout t.source.srcDetector) && !s.bits (.layout t.dest.dstDetector) &&
    !s.bits (.layout t.source.routeOut) && !s.bits (.layout t.dest.routeIn) &&
    !s.bits (.layout t.dest.autoBlocked) && !s.bits .isFrozen && holdsAll t.condition s

/-- The permit is granted, when it has been requested, and the lock is free. -/
def permitted (s : TrainState X) : Bool :=
  match t.client with
  | none => lockIsFree t.lock s
  | some client =>
    (s.setBit (.layout client.request) true).bits (.layout client.granted) &&
      lockIsFree t.lock (s.setBit (.layout client.request) true)

/-- The permit has been granted, and the lock is free. -/
def granted (s : TrainState X) : Bool :=
  (t.client.all fun client => s.bits (.layout client.request) && s.bits (.layout client.granted)) &&
    lockIsFree t.lock s

/-- The transition would go ahead. -/
def admits (s : TrainState X) : Bool := t.tests s && t.permitted s

end Transition

omit [DecidableEq X] in
theorem testAll_runCondition (condition : List (X × Bool)) (s : TrainState X) :
    testAll control s (Schedule.runCondition condition) = some (holdsAll condition s) := by
  induction condition with
  | nil => rfl
  | cons p rest ih =>
    have htest := test_bit (m := control) (s := s) (r := .var (.layout p.1)) rfl p.2
    cases hp : s.bits (.layout p.1) == p.2 with
    | false =>
      rw [hp] at htest
      rw [holdsAll, List.all_cons, hp, Bool.false_and]
      exact testAll_cons_false htest
    | true =>
      rw [hp] at htest
      rw [holdsAll, List.all_cons, hp, Bool.true_and]
      exact (testAll_cons_true htest).trans ih

omit [DecidableEq X] in
theorem testAll_lockFree (lock : Option X) (s : TrainState X) :
    testAll control s (Schedule.lockFree lock) = some (lockIsFree lock s) := by
  cases lock with
  | none => rfl
  | some v => cases hv : s.bits (.layout v) <;>
      simp [Schedule.lockFree, testAll, Guard.test, lockIsFree, hv]

/-! ## Imports -/

/-- What is imported where the train is at the source. -/
@[mk_iff] structure Here (t : Transition X) (s : TrainState X) : Prop where
  detector : s.bound currentBlockDetector = some (.layout t.source.srcDetector)
  nextPermaloc : s.bound nextBlockPermaloc = some (.permaloc t.dest.name)
  requestGreen : s.bound routingBlockRequestGreen = some (.layout t.source.requestGreen)
  routeOut : s.bound routingBlockRouteOut = some (.layout t.source.routeOut)
  nextDetector : s.bound nextBlockDetector = some (.layout t.dest.dstDetector)
  nextRoutingloc : s.bound nextBlockRoutingloc = some (.routingloc t.dest.name)
  nextRouteIn : s.bound nextBlockRouteIn = some (.layout t.dest.routeIn)

/-- What is imported behind the imports of a transition. -/
structure Imported (a : Schedule X) (t : Transition X) (s : TrainState X) : Prop where
  permaloc : s.bound currentBlockPermaloc = some (.permaloc t.source.name)
  routingloc : s.bound currentBlockRoutingloc = some (.routingloc t.source.name)
  copied : s.bits (.routingloc t.source.name) = s.bits (.permaloc t.source.name)
  direction : a.importsDirection t = true → s.bound currentDirection = some (.helper t.key)
  blocked : s.bound nextBlockBlocked = some (.layout t.dest.autoBlocked)
  permit : ∀ client, t.client = some client →
    s.bound permitRequest = some (.layout client.request) ∧
      s.bound permitGranted = some (.layout client.granted) ∧
      s.bound permitTaken = some (.layout client.taken)
  here : s.bits (.permaloc t.source.name) = true → Here t s

/-- Only variables of the layout have changed. -/
structure LayoutOnly (s u : TrainState X) : Prop where
  control : u.control = s.control
  bound : u.bound = s.bound
  own : ∀ v, (∀ x, v ≠ .layout x) → u.bits v = s.bits v

omit [DecidableEq X] in
theorem LayoutOnly.refl (s : TrainState X) : LayoutOnly s s := ⟨rfl, rfl, fun _ _ => rfl⟩

omit [DecidableEq X] in
theorem LayoutOnly.trans (h : LayoutOnly s u) (h' : LayoutOnly u s') : LayoutOnly s s' :=
  ⟨h'.control.trans h.control, h'.bound.trans h.bound,
    fun v hv => (h'.own v hv).trans (h.own v hv)⟩

theorem layoutOnly_setBit (s : TrainState X) (x : X) (value : Bool) :
    LayoutOnly s (s.setBit (.layout x) value) :=
  ⟨rfl, rfl, fun v hv => by rw [bits_setBit, if_neg (hv x)]⟩

omit [DecidableEq X] in
theorem Here.of_bound {t : Transition X} (h : Here t s) (hbound : u.bound = s.bound) :
    Here t u := by
  rw [here_iff] at h ⊢
  rw [hbound]
  exact h

omit [DecidableEq X] in
theorem Imported.layoutOnly {a : Schedule X} {t : Transition X} (h : Imported a t s)
    (hlayout : LayoutOnly s u) : Imported a t u := by
  have hpermaloc := hlayout.own (.permaloc t.source.name) (by simp)
  refine ⟨?_, ?_, ?_, ?_, ?_, ?_, fun hsource => ?_⟩
  · rw [hlayout.bound, h.permaloc]
  · rw [hlayout.bound, h.routingloc]
  · rw [hlayout.own _ (by simp), hpermaloc, h.copied]
  · rw [hlayout.bound]
    exact h.direction
  · rw [hlayout.bound, h.blocked]
  · rw [hlayout.bound]
    exact h.permit
  · exact (h.here (hpermaloc ▸ hsource)).of_bound hlayout.bound

/-- The state with another automaton state. -/
def goTo (s : TrainState X) (state : Nat) : TrainState X :=
  { s with control := { s.control with state := UInt8.ofNat state } }

omit [DecidableEq X] in
@[simp] theorem state_goTo (s : TrainState X) (state : Nat) :
    (goTo s state).control.state = UInt8.ofNat state := rfl

omit [DecidableEq X] in
@[simp] theorem bits_goTo (s : TrainState X) (state : Nat) : (goTo s state).bits = s.bits := rfl

omit [DecidableEq X] in
@[simp] theorem bound_goTo (s : TrainState X) (state : Nat) : (goTo s state).bound = s.bound := rfl

omit [DecidableEq X] in
theorem goTo_self {state : Nat} (h : s.control.state = UInt8.ofNat state) : goTo s state = s := by
  unfold goTo
  rw [← h]

omit [DecidableEq X] in
@[simp] theorem goTo_goTo (s : TrainState X) (state state' : Nat) :
    goTo (goTo s state) state' = goTo s state' := rfl

omit [DecidableEq X] in
theorem Imported.goTo {a : Schedule X} {t : Transition X} (h : Imported a t s) (state : Nat) :
    Imported a t (TrainSchedule.goTo s state) where
  permaloc := h.permaloc
  routingloc := h.routingloc
  copied := h.copied
  direction := h.direction
  blocked := h.blocked
  permit := h.permit
  here hsource := (h.here hsource).of_bound rfl

namespace Schedule

variable (a : Schedule X) (t : Transition X)

/-- `DefCopy` of variables that are bound. -/
theorem run_defCopy {src dst : Reg X} {v v' : Var X} (hsrc : s.lookup src = some v)
    (hdst : s.lookup dst = some v') :
    run control s (defCopy src dst) = some (s.setBit v' (s.bits v)) := by
  have hsame : s.bits v = s.bits v' → s.setBit v' (s.bits v) = s := by
    intro heq
    rw [heq, setBit_self]
  cases hv : s.bits v <;> cases hv' : s.bits v' <;> rw [hv, hv'] at hsame <;>
    simp [defCopy, run_cons, Operation.exec, testAll, Guard.test, performAll_cons, Action.perform,
      hsrc, hdst, hv, hv', bits_setBit]
  · exact (hsame rfl).symm
  · exact (hsame rfl).symm

/-- The imports for the current block. -/
theorem run_importCurrent (s : TrainState X) : ∃ u, run control s (a.importCurrent t) = some u ∧
    u.control = s.control ∧ u.bits = s.bits ∧
    u.bound currentBlockPermaloc = some (.permaloc t.source.name) ∧
    u.bound currentBlockRoutingloc = some (.routingloc t.source.name) ∧
    (a.importsDirection t = true → u.bound currentDirection = some (.helper t.key)) ∧
    u.bound nextBlockBlocked = some (.layout t.dest.autoBlocked) ∧
    (s.bits (.permaloc t.source.name) = true →
      u.bound currentBlockDetector = some (.layout t.source.srcDetector)) := by
  cases hsource : s.bits (.permaloc t.source.name) <;> cases hd : a.importsDirection t <;>
    simp [importCurrent, mapCurrentBlockPermaloc, hd, maybe, run_cons, Operation.exec, testAll,
      Guard.test, performAll_cons, Action.perform, hsource, bound_bind]

/-- The imports for the route, where the routingloc says what the permaloc says. -/
theorem run_importRouting (hpermaloc : s.bound currentBlockPermaloc = some (.permaloc t.source.name))
    (hrouting : s.bound currentBlockRoutingloc = some (.routingloc t.source.name))
    (hcopied : s.bits (.routingloc t.source.name) = s.bits (.permaloc t.source.name)) :
    ∃ u, run control s ([importNextPermaloc t] ++ importRouting t) = some u ∧
      u.control = s.control ∧ u.bits = s.bits ∧
      (∀ l ∈ [currentBlockPermaloc, currentBlockRoutingloc, currentDirection, nextBlockBlocked,
        currentBlockDetector], u.bound l = s.bound l) ∧
      (∀ client, t.client = some client →
        u.bound permitRequest = some (.layout client.request) ∧
          u.bound permitGranted = some (.layout client.granted) ∧
          u.bound permitTaken = some (.layout client.taken)) ∧
      (s.bits (.permaloc t.source.name) = true →
        s.bound currentBlockDetector = some (.layout t.source.srcDetector) → Here t u) := by
  cases hsource : s.bits (.permaloc t.source.name) <;> cases hclient : t.client <;>
    simp [importNextPermaloc, importRouting, run_cons, Operation.exec, testAll, Guard.test,
      performAll_cons, Action.perform, hpermaloc, hrouting, hcopied, hsource, hclient, bound_bind,
      here_iff]

/-- The operations before the test. -/
def imports : List (TrainOp X) :=
  a.importCurrent t ++
  (if t.eager then updateRoutingloc t else defCopy currentBlockPermaloc currentBlockRoutingloc) ++
  [importNextPermaloc t] ++ maybe t.eager (a.advancePermaloc t) ++ importRouting t

/-- Behind the imports, the routingloc has been set to the permaloc, and nothing else has
happened. -/
theorem run_imports (heager : t.eager = false) (s : TrainState X) : ∃ u,
    run control s (a.imports t) = some u ∧ Imported a t u ∧ u.control = s.control ∧
    ∀ v, v ≠ .routingloc t.source.name → u.bits v = s.bits v := by
  obtain ⟨s₁, h₁, hcontrol₁, hbits₁, hpermaloc, hrouting, hdirection, hblocked, hdetector⟩ :=
    a.run_importCurrent t s
  have h₂ := run_defCopy (show s₁.lookup (.slot currentBlockPermaloc) = _ from hpermaloc)
    (show s₁.lookup (.slot currentBlockRoutingloc) = _ from hrouting)
  have hcopied : (s₁.setBit (.routingloc t.source.name) (s₁.bits (.permaloc t.source.name))).bits
      (.routingloc t.source.name) = s₁.bits (.permaloc t.source.name) := by
    rw [bits_setBit, if_pos rfl]
  have hkept : (s₁.setBit (.routingloc t.source.name) (s₁.bits (.permaloc t.source.name))).bits
      (.permaloc t.source.name) = s₁.bits (.permaloc t.source.name) := by
    rw [bits_setBit, if_neg (by simp)]
  generalize hs₂ : s₁.setBit (.routingloc t.source.name) (s₁.bits (.permaloc t.source.name)) = s₂
    at h₂ hcopied hkept
  have hbound₂ : s₂.bound = s₁.bound := by rw [← hs₂]; rfl
  obtain ⟨u, hu, hcontrol, hbits, hbound, hpermit, hhere⟩ := run_importRouting t
    ((congrFun hbound₂ _).trans hpermaloc) ((congrFun hbound₂ _).trans hrouting)
    (hcopied.trans hkept.symm)
  have hu' : ∀ l ∈ [currentBlockPermaloc, currentBlockRoutingloc, currentDirection,
      nextBlockBlocked, currentBlockDetector], u.bound l = s₁.bound l :=
    fun l hl => (hbound l hl).trans (congrFun hbound₂ l)
  refine ⟨u, ?_, ⟨?_, ?_, ?_, ?_, ?_, hpermit, ?_⟩, ?_, ?_⟩
  · rw [imports, heager, List.append_assoc, List.append_assoc, List.append_assoc]
    refine run_append_eq_some.mpr ⟨s₁, h₁, run_append_eq_some.mpr ⟨s₂, h₂, ?_⟩⟩
    exact hu
  · exact (hu' _ (by simp)).trans hpermaloc
  · exact (hu' _ (by simp)).trans hrouting
  · rw [hbits, hcopied, hkept]
  · exact fun hd => (hu' _ (by simp)).trans (hdirection hd)
  · exact (hu' _ (by simp)).trans hblocked
  · intro hset
    rw [hbits, hkept] at hset
    refine hhere (hkept.trans hset) ((congrFun hbound₂ _).trans (hdetector ?_))
    rw [← hbits₁]
    exact hset
  · rw [hcontrol, ← hs₂]
    exact hcontrol₁
  · intro v hv
    rw [hbits, ← hs₂, bits_setBit, if_neg hv, hbits₁]

/-! ## The test -/

/-- An operation for another state. -/
theorem exec_other_state {state : Nat} (h : s.control.state ≠ UInt8.ofNat state)
    (rest : List (If X)) (acts : List (Act X)) :
    (⟨ifState state :: rest, acts⟩ : TrainOp X).exec control s = some s := by
  refine exec_skip_first ?_ rest acts
  rw [Guard.test]
  exact congrArg some (beq_false_of_ne h)

/-- An operation that changes the state in this state. -/
theorem exec_change_state {state : Nat} (h : s.control.state = UInt8.ofNat state) (state' : Nat) :
    (⟨[ifState state], [actState state']⟩ : TrainOp X).exec control s =
      some (goTo s state') := by
  refine exec_of_testAll ?_
  rw [testAll_cons_control _ testAll_nil]
  simp [control, h]

omit [DecidableEq X] in
/-- The test of a transition, with the train at the source. -/
theorem testAll_tests (heager : t.eager = false) (h : Imported a t s)
    (hsource : s.bits (.permaloc t.source.name) = true)
    (hstate : s.control.state = UInt8.ofNat stTestCondition) :
    testAll control s ([ifState stTestCondition] ++
      maybe (!t.eager) (ifReg currentBlockDetector true) ++
      [ifReg0 nextBlockDetector, ifReg0 routingBlockRouteOut, ifReg0 nextBlockRouteIn,
        ifReg0 nextBlockBlocked, ifReg0 (.var .isFrozen)] ++ runCondition t.condition) =
      some (t.tests s) := by
  have here := h.here hsource
  have htests := testAll_cons_control (.ifState stTestCondition) <|
    testAll_cons_bit (r := .slot currentBlockDetector) here.detector true <|
    testAll_cons_bit (r := .slot nextBlockDetector) here.nextDetector false <|
    testAll_cons_bit (r := .slot routingBlockRouteOut) here.routeOut false <|
    testAll_cons_bit (r := .slot nextBlockRouteIn) here.nextRouteIn false <|
    testAll_cons_bit (r := .slot nextBlockBlocked) h.blocked false <|
    testAll_cons_bit (r := .var .isFrozen) rfl false <| testAll_runCondition t.condition s
  rw [heager]
  refine htests.trans ?_
  simp [control, hstate, Transition.tests, Bool.and_assoc]

/-- The states from which a transition may go ahead. -/
def Undecided (s : TrainState X) : Prop :=
  s.control.state = UInt8.ofNat stWaiting ∨ s.control.state = UInt8.ofNat stTestCondition ∨
    s.control.state = UInt8.ofNat stTestCondition2

/-- A test that was not finished is given up. -/
theorem run_settle (h : Undecided s) : run control s
    [⟨[ifState stTestCondition], [actState stWaiting]⟩,
      ⟨[ifState stTestCondition2], [actState stWaiting]⟩] = some (goTo s stWaiting) := by
  have hwaiting : ∀ u : TrainState X, u.control.state = UInt8.ofNat stWaiting →
      run control u [⟨[ifState stTestCondition2], [actState stWaiting]⟩] = some u := by
    intro u hu
    rw [run_singleton, exec_other_state (by rw [hu]; decide)]
  rcases h with h | h | h
  · rw [run_cons, exec_other_state (by rw [h]; decide), Option.bind_some, hwaiting s h,
      goTo_self h]
  · rw [run_cons, exec_change_state h, Option.bind_some, hwaiting _ rfl]
  · rw [run_cons, exec_other_state (by rw [h]; decide), Option.bind_some, run_singleton,
      exec_change_state h]

theorem run_testCondition_of_decided (h : ¬ Undecided s) :
    run control s (testCondition t) = some s := by
  obtain ⟨hwaiting, htest, htest2⟩ : s.control.state ≠ UInt8.ofNat stWaiting ∧
      s.control.state ≠ UInt8.ofNat stTestCondition ∧
      s.control.state ≠ UInt8.ofNat stTestCondition2 := by
    simpa [Undecided, not_or] using h
  rw [testCondition, run_cons, exec_other_state htest, Option.bind_some, run_cons,
    exec_other_state htest2, Option.bind_some, run_cons, exec_other_state hwaiting,
    Option.bind_some, run_singleton]
  exact exec_other_state htest _ _

/-- The test of a transition: with the train at its source, the next states say what it was. -/
theorem run_testCondition (heager : t.eager = false) (h : Imported a t s) (hs : Undecided s) :
    run control s (testCondition t) = some (goTo s (if s.bits (.permaloc t.source.name) then
      if t.tests s then stTestCondition2 else stTestCondition else stWaiting)) := by
  have himported := h.goTo stWaiting
  have hlocation := testAll_cons_control (m := control) (s := goTo s stWaiting)
    (.ifState stWaiting) <| testAll_cons_bit (r := .slot currentBlockRoutingloc)
      himported.routingloc true testAll_nil
  have hsplit : testCondition t = [⟨[ifState stTestCondition], [actState stWaiting]⟩,
      ⟨[ifState stTestCondition2], [actState stWaiting]⟩] ++ (testCondition t).drop 2 := rfl
  rw [hsplit, run_append, run_settle hs, Option.bind_some]
  simp only [testCondition, List.drop_succ_cons, List.drop_zero]
  rw [bits_goTo, h.copied] at hlocation
  cases hsource : s.bits (.permaloc t.source.name) with
  | false =>
    rw [hsource] at hlocation
    rw [run_cons, exec_skip (hlocation.trans (by simp)), Option.bind_some, run_singleton,
      if_neg Bool.false_ne_true]
    exact exec_other_state
      (show UInt8.ofNat stWaiting ≠ UInt8.ofNat stTestCondition by decide) _ _
  | true =>
    rw [hsource] at hlocation
    have htest := testAll_tests a t heager (h.goTo stTestCondition) hsource rfl
    rw [run_cons, exec_of_testAll (hlocation.trans (by simp [control])), if_pos rfl]
    change run control (goTo s stTestCondition) [_] = _
    rw [run_singleton]
    cases htests : t.tests s with
    | false =>
      rw [if_neg Bool.false_ne_true]
      exact exec_skip (htest.trans (congrArg some htests))
    | true =>
      rw [if_pos rfl]
      exact (exec_of_testAll (htest.trans (congrArg some htests))).trans rfl

/-! ## The permit -/

/-- A write in this state. -/
theorem exec_write_in_state {state : Nat} (h : s.control.state = UInt8.ofNat state) {r : Reg X}
    {v : Var X} (hr : s.lookup r = some v) (value : Bool) :
    (⟨[ifState state], [actReg r value]⟩ : TrainOp X).exec control s =
      some (s.setBit v value) := by
  have htest := testAll_cons_control (m := control) (s := s) (L := Local) (G := Var X)
    (.ifState state) testAll_nil
  rw [exec_of_testAll (htest.trans (by simp [control, h])), performAll_write hr]
  rfl

/-- The request is taken back where the route is set. -/
theorem exec_dropRequest (h : Imported a t s) {client : RequestClient X}
    (hclient : t.client = some client) :
    (⟨[ifReg1 currentBlockRoutingloc, ifReg1 routingBlockRouteOut], [actReg0 permitRequest]⟩ :
      TrainOp X).exec control s = some s ∨
    (⟨[ifReg1 currentBlockRoutingloc, ifReg1 routingBlockRouteOut], [actReg0 permitRequest]⟩ :
      TrainOp X).exec control s = some (s.setBit (.layout client.request) false) := by
  have hlocation := test_bit (m := control) (r := .slot currentBlockRoutingloc) h.routingloc true
  rw [h.copied] at hlocation
  cases hsource : s.bits (.permaloc t.source.name) with
  | false =>
    rw [hsource] at hlocation
    exact .inl (exec_skip_first hlocation _ _)
  | true =>
    rw [hsource] at hlocation
    have hroute := testAll_cons_bit (m := control) (r := .slot routingBlockRouteOut)
      (h.here hsource).routeOut true testAll_nil
    cases hout : s.bits (.layout t.source.routeOut) with
    | false =>
      rw [hout] at hroute
      exact .inl (exec_skip ((testAll_cons_true hlocation).trans hroute))
    | true =>
      rw [hout] at hroute
      refine .inr ((exec_of_testAll ((testAll_cons_true hlocation).trans hroute)).trans ?_)
      exact performAll_write (r := .slot permitRequest) (h.permit client hclient).1 false []

/-- The request of the permit writes the request of the client only.  In the state for it the
request stays, unless the route is set. -/
theorem run_requestPermit (h : Imported a t s) : ∃ u,
    run control s (requestPermit t) = some u ∧ LayoutOnly s u ∧ (t.client = none → u = s) ∧
    (s.control.state = UInt8.ofNat stTestCondition2 → ∀ client, t.client = some client →
      u.bits (.layout client.request) = true → u = s.setBit (.layout client.request) true) := by
  cases hclient : t.client with
  | none =>
    refine ⟨s, ?_, .refl s, fun _ => rfl, fun _ _ h => (by cases h)⟩
    rw [requestPermit, Transition.hasPermit, hclient, Option.isSome_none, if_neg Bool.false_ne_true]
    rfl
  | some client =>
    rw [requestPermit, Transition.hasPermit, hclient, Option.isSome_some, if_pos rfl]
    have hrequest := (h.permit client hclient).1
    obtain ⟨w, hw, hlayout, hset⟩ : ∃ w, run control s
        [⟨[ifState stTestCondition2], [actReg1 permitRequest]⟩,
          ⟨[ifState stTestCondition], [actReg0 permitRequest]⟩] = some w ∧ LayoutOnly s w ∧
        (s.control.state = UInt8.ofNat stTestCondition2 →
          w = s.setBit (.layout client.request) true) := by
      by_cases htest2 : s.control.state = UInt8.ofNat stTestCondition2
      · refine ⟨_, ?_, layoutOnly_setBit s client.request true, fun _ => rfl⟩
        rw [run_cons, exec_write_in_state (r := .slot permitRequest) htest2 hrequest,
          Option.bind_some, run_singleton]
        refine exec_other_state ?_ _ _
        rw [control_setBit, htest2]
        decide
      · rw [run_cons, exec_other_state htest2, Option.bind_some, run_singleton]
        by_cases htest : s.control.state = UInt8.ofNat stTestCondition
        · exact ⟨_, exec_write_in_state (r := .slot permitRequest) htest hrequest false,
            layoutOnly_setBit s client.request false, fun h => absurd h htest2⟩
        · exact ⟨s, exec_other_state htest _ _, .refl s, fun h => absurd h htest2⟩
    have hdrop := exec_dropRequest a t (h.layoutOnly hlayout) hclient
    have hrun : ∀ u, (⟨[ifReg1 currentBlockRoutingloc, ifReg1 routingBlockRouteOut],
        [actReg0 permitRequest]⟩ : TrainOp X).exec control w = some u →
        run control s [⟨[ifState stTestCondition2], [actReg1 permitRequest]⟩,
          ⟨[ifState stTestCondition], [actReg0 permitRequest]⟩,
          ⟨[ifReg1 currentBlockRoutingloc, ifReg1 routingBlockRouteOut],
            [actReg0 permitRequest]⟩] = some u := fun u hu =>
      run_append_eq_some.mpr ⟨w, hw, (run_singleton _).trans hu⟩
    rcases hdrop with hsame | hreset
    · refine ⟨w, hrun w hsame, hlayout, fun h => (by cases h), fun htest2 client' hclient' _ => ?_⟩
      cases hclient'
      exact hset htest2
    · refine ⟨_, hrun _ hreset, hlayout.trans (layoutOnly_setBit w client.request false),
        fun h => (by cases h), fun _ client' hclient' htrue => ?_⟩
      cases hclient'
      rw [bits_setBit, if_pos rfl] at htrue
      cases htrue

/-! ## The decision -/

omit [DecidableEq X] in
/-- A transition without a direction bit is the only one from its block. -/
theorem eq_of_not_importsDirection {t t' : Transition X} (ht : t ∈ a.transitions)
    (ht' : t' ∈ a.transitions) (hsource : t'.source.name = t.source.name)
    (himports : a.importsDirection t = false) : t' = t := by
  obtain ⟨-, hone⟩ : t.hasPermit = false ∧ ¬ 1 < a.numDirections t.source.name := by
    simpa [importsDirection] using himports
  by_contra hne
  apply hone
  have hcount : [t, t'].length ≤ (a.transitions.filter fun u =>
      u.source.name == t.source.name).length := by
    refine (List.subperm_of_subset (by simpa using Ne.symm hne) fun u hu => ?_).length_le
    simp only [List.mem_cons, List.not_mem_nil, or_false] at hu
    rcases hu with rfl | rfl
    · exact List.mem_filter.mpr ⟨ht, by simp⟩
    · exact List.mem_filter.mpr ⟨ht', by simp [hsource]⟩
  rw [← List.countP_eq_length_filter] at hcount
  exact hcount

omit [DecidableEq X] in
/-- A transition imports its direction bit exactly if its location respects directions. -/
theorem respectDirection_eq (ht : t ∈ a.transitions) :
    a.respectDirection t.source.name = a.importsDirection t := by
  cases himports : a.importsDirection t with
  | true => exact List.any_eq_true.mpr ⟨t, ht, by simp [himports]⟩
  | false =>
    rw [respectDirection, List.any_eq_false]
    intro t' ht' hboth
    obtain ⟨hsource, himports'⟩ := Bool.and_eq_true_iff.mp hboth
    rw [a.eq_of_not_importsDirection ht ht' (beq_iff_eq.mp hsource) himports, himports] at himports'
    cases himports'

/-- The direction bit, if there is one, set to a value. -/
def setDirection (s : TrainState X) (value : Bool) : TrainState X :=
  if a.importsDirection t then s.setBit (.helper t.key) value else s

theorem bits_setDirection (s : TrainState X) (value : Bool) {v : Var X}
    (hv : ∀ k, v ≠ .helper k) : (a.setDirection t s value).bits v = s.bits v := by
  unfold setDirection
  split
  · rw [bits_setBit, if_neg (hv t.key)]
  · rfl

theorem control_setDirection (s : TrainState X) (value : Bool) :
    (a.setDirection t s value).control = s.control := by
  unfold setDirection
  split <;> rfl

theorem bound_setDirection (s : TrainState X) (value : Bool) :
    (a.setDirection t s value).bound = s.bound := by
  unfold setDirection
  split <;> rfl

theorem imported_setDirection (h : Imported a t s) (value : Bool) :
    Imported a t (a.setDirection t s value) := by
  have hbound := a.bound_setDirection t s value
  have hpermaloc := a.bits_setDirection t s value (v := .permaloc t.source.name) (by simp)
  refine ⟨?_, ?_, ?_, ?_, ?_, ?_, fun hsource => ?_⟩
  · rw [hbound, h.permaloc]
  · rw [hbound, h.routingloc]
  · rw [hpermaloc, a.bits_setDirection t s value (by simp), h.copied]
  · rw [hbound]
    exact h.direction
  · rw [hbound, h.blocked]
  · rw [hbound]
    exact h.permit
  · exact (h.here (hpermaloc ▸ hsource)).of_bound hbound

omit [DecidableEq X] in
/-- The guards of the decision. -/
theorem testAll_decide (h : Imported a t s)
    (hstate : s.control.state = UInt8.ofNat stTestCondition2) :
    testAll control s ([ifState stTestCondition2] ++
      maybe t.hasPermit (ifReg permitRequest true) ++
      maybe t.hasPermit (ifReg permitGranted true) ++ lockFree t.lock) =
      some (t.granted s) := by
  rw [Transition.granted]
  cases hclient : t.client with
  | none =>
    have hguards := testAll_cons_control (m := control) (.ifState stTestCondition2) <|
      testAll_lockFree t.lock s
    rw [Transition.hasPermit, hclient]
    refine hguards.trans ?_
    simp [control, hstate]
  | some client =>
    obtain ⟨hrequest, hgranted, -⟩ := h.permit client hclient
    have hguards := testAll_cons_control (m := control) (.ifState stTestCondition2) <|
      testAll_cons_bit (r := .slot permitRequest) hrequest true <|
      testAll_cons_bit (r := .slot permitGranted) hgranted true <| testAll_lockFree t.lock s
    rw [Transition.hasPermit, hclient]
    refine hguards.trans ?_
    simp [control, hstate, Bool.and_assoc]

/-- The direction bit is cleared while the train waits. -/
theorem exec_clearDirection (h : Imported a t s) (hd : a.importsDirection t = true) :
    (⟨[ifState stWaiting, ifReg1 currentBlockRoutingloc, ifReg1 currentDirection],
      [actReg0 currentDirection]⟩ : TrainOp X).exec control s =
      some (if s.control.state = UInt8.ofNat stWaiting ∧
        s.bits (.permaloc t.source.name) = true then s.setBit (.helper t.key) false else s) := by
  have hdirection := h.direction hd
  have hguards := testAll_cons_control (m := control) (.ifState stWaiting) <|
    testAll_cons_bit (r := .slot currentBlockRoutingloc) h.routingloc true <|
    testAll_cons_bit (r := .slot currentDirection) hdirection true <| testAll_nil
  rw [h.copied] at hguards
  by_cases hwaiting : s.control.state = UInt8.ofNat stWaiting
  · cases hsource : s.bits (.permaloc t.source.name) with
    | false => exact (exec_skip (hguards.trans (by simp [hsource]))).trans (by simp)
    | true =>
      rw [if_pos ⟨hwaiting, rfl⟩]
      cases hset : s.bits (.helper t.key) with
      | false =>
        rw [← hset, setBit_self]
        exact exec_skip (hguards.trans (by simp [hset]))
      | true =>
        refine (exec_of_testAll (hguards.trans (by simp [control, hwaiting, hsource, hset]))).trans ?_
        exact performAll_write (r := .slot currentDirection) hdirection false []
  · rw [if_neg fun h => hwaiting h.1]
    exact exec_other_state hwaiting _ _

theorem run_clearDirection (ht : t ∈ a.transitions) (h : Imported a t s) :
    run control s (maybe (a.respectDirection t.source.name)
      ⟨[ifState stWaiting, ifReg1 currentBlockRoutingloc, ifReg1 currentDirection],
        [actReg0 currentDirection]⟩) =
      some (if s.control.state = UInt8.ofNat stWaiting ∧
        s.bits (.permaloc t.source.name) = true then a.setDirection t s false else s) := by
  rw [a.respectDirection_eq t ht, setDirection]
  cases hd : a.importsDirection t with
  | false => simp [maybe]
  | true =>
    rw [maybe, if_pos rfl, if_pos rfl, run_singleton]
    exact a.exec_clearDirection t h hd

/-- With the train elsewhere, or in the states of a route, there is nothing to decide. -/
theorem run_decideToGo_of_decided (ht : t ∈ a.transitions) (h : Imported a t s)
    (htest : s.control.state ≠ UInt8.ofNat stTestCondition)
    (htest2 : s.control.state ≠ UInt8.ofNat stTestCondition2)
    (hwaiting : s.control.state = UInt8.ofNat stWaiting →
      s.bits (.permaloc t.source.name) = false) :
    run control s (a.decideToGo t) = some s := by
  have hclear := a.run_clearDirection t ht h
  rw [if_neg fun hboth => by simp [hwaiting hboth.1] at hboth] at hclear
  rw [decideToGo, run_append, run_cons, exec_other_state htest, Option.bind_some, run_cons]
  simp only [List.cons_append, List.nil_append]
  rw [exec_other_state htest2, Option.bind_some, run_singleton, exec_other_state htest2,
    Option.bind_some]
  exact hclear

/-- A test that failed is the end of the attempt. -/
theorem run_decideToGo_of_failed (ht : t ∈ a.transitions) (h : Imported a t s)
    (hsource : s.bits (.permaloc t.source.name) = true)
    (htest : s.control.state = UInt8.ofNat stTestCondition) :
    run control s (a.decideToGo t) = some (a.setDirection t (goTo s stWaiting) false) := by
  have hclear := a.run_clearDirection t ht (h.goTo stWaiting)
  rw [if_pos ⟨rfl, hsource⟩] at hclear
  have hother : (goTo s stWaiting).control.state ≠ UInt8.ofNat stTestCondition2 :=
    show UInt8.ofNat stWaiting ≠ UInt8.ofNat stTestCondition2 by decide
  rw [decideToGo, run_append, run_cons, exec_change_state htest, Option.bind_some, run_cons]
  simp only [List.cons_append, List.nil_append]
  rw [exec_other_state hother, Option.bind_some, run_singleton, exec_other_state hother,
    Option.bind_some]
  exact hclear

/-- So is a permit that is not granted. -/
theorem run_decideToGo_of_refused (ht : t ∈ a.transitions) (h : Imported a t s)
    (hsource : s.bits (.permaloc t.source.name) = true)
    (htest2 : s.control.state = UInt8.ofNat stTestCondition2) (hgranted : t.granted s = false) :
    run control s (a.decideToGo t) = some (a.setDirection t (goTo s stWaiting) false) := by
  have hclear := a.run_clearDirection t ht (h.goTo stWaiting)
  rw [if_pos ⟨rfl, hsource⟩] at hclear
  have hguards := testAll_decide a t h htest2
  rw [hgranted] at hguards
  rw [decideToGo, run_append, run_cons, exec_other_state (by rw [htest2]; decide),
    Option.bind_some, run_cons]
  simp only [List.cons_append, List.nil_append] at hguards ⊢
  rw [exec_skip hguards, Option.bind_some, run_singleton, exec_change_state htest2,
    Option.bind_some]
  exact hclear

/-- Writes of variables of the layout. -/
theorem performAll_layoutOnly {acts : List (Act X)}
    (h : ∀ act ∈ acts, ∃ r value x, act = actReg r value ∧ s.lookup r = some (.layout x)) :
    ∃ u, performAll control s acts = some u ∧ LayoutOnly s u := by
  induction acts generalizing s with
  | nil => exact ⟨s, rfl, .refl s⟩
  | cons act rest ih =>
    obtain ⟨r, value, x, rfl, hr⟩ := h act List.mem_cons_self
    rw [performAll_write hr]
    have hrest : ∀ act ∈ rest, ∃ r value x', act = actReg r value ∧
        (s.setBit (.layout x) value).lookup r = some (.layout x') := by
      intro act hact
      obtain ⟨r', value', x', heq, hr'⟩ := h act (List.mem_cons_of_mem _ hact)
      exact ⟨r', value', x', heq, (lookup_setBit ..).trans hr'⟩
    obtain ⟨u, hu, hlayout⟩ := ih (s := s.setBit (.layout x) value) hrest
    exact ⟨u, hu, (layoutOnly_setBit s x value).trans hlayout⟩

/-- With the permit, the train goes ahead in this direction. -/
theorem run_decideToGo_of_granted (ht : t ∈ a.transitions) (h : Imported a t s)
    (htest2 : s.control.state = UInt8.ofNat stTestCondition2) (hgranted : t.granted s = true) :
    ∃ u, LayoutOnly s u ∧
      run control s (a.decideToGo t) = some (goTo (a.setDirection t u true) stReadyToGo) := by
  have hguards := testAll_decide a t h htest2
  rw [hgranted] at hguards
  have hwrites : ∀ act ∈ acquireLock t.lock ++ maybe t.hasPermit (actReg permitRequest false) ++
      maybe t.hasPermit (actReg permitGranted false) ++
      maybe t.hasPermit (actReg permitTaken true),
      ∃ r value x, act = actReg r value ∧ s.lookup r = some (.layout x) := by
    intro act hact
    simp only [List.mem_append, mem_maybe, acquireLock, List.mem_map] at hact
    rcases hact with ((⟨v, -, rfl⟩ | ⟨hpermit, rfl⟩) | ⟨hpermit, rfl⟩) | ⟨hpermit, rfl⟩
    · exact ⟨_, _, v, rfl, rfl⟩
    · obtain ⟨client, hclient⟩ := Option.isSome_iff_exists.mp hpermit
      exact ⟨_, _, _, rfl, (h.permit client hclient).1⟩
    · obtain ⟨client, hclient⟩ := Option.isSome_iff_exists.mp hpermit
      exact ⟨_, _, _, rfl, (h.permit client hclient).2.1⟩
    · obtain ⟨client, hclient⟩ := Option.isSome_iff_exists.mp hpermit
      exact ⟨_, _, _, rfl, (h.permit client hclient).2.2⟩
  obtain ⟨u, hu, hlayout⟩ := performAll_layoutOnly hwrites
  refine ⟨u, hlayout, ?_⟩
  have hdirection : performAll control u (maybe (a.respectDirection t.source.name)
      (actReg currentDirection true) ++ [actState stReadyToGo]) =
        some (goTo (a.setDirection t u true) stReadyToGo) := by
    rw [a.respectDirection_eq t ht, setDirection]
    cases hd : a.importsDirection t with
    | false => rfl
    | true =>
      have hbound : u.lookup (.slot currentDirection) = some (.helper t.key) :=
        (congrFun hlayout.bound _).trans (h.direction hd)
      rw [maybe, if_pos rfl, if_pos rfl]
      exact performAll_write hbound true _
  have hready : UInt8.ofNat stReadyToGo ≠ UInt8.ofNat stTestCondition2 ∧
      UInt8.ofNat stReadyToGo ≠ UInt8.ofNat stWaiting := by decide
  have himported : Imported a t (goTo (a.setDirection t u true) stReadyToGo) :=
    (a.imported_setDirection t (h.layoutOnly hlayout) true).goTo stReadyToGo
  have hclear := a.run_clearDirection t ht himported
  rw [if_neg fun hboth => hready.2 hboth.1] at hclear
  rw [decideToGo, run_append, run_cons, exec_other_state (by rw [htest2]; decide),
    Option.bind_some, run_cons]
  simp only [List.cons_append, List.nil_append] at hguards ⊢
  rw [exec_of_testAll hguards, List.append_assoc (_ ++ _ ++ _ ++ _), performAll_append, hu,
    Option.bind_some, hdirection, Option.bind_some, run_singleton, exec_other_state hready.1,
    Option.bind_some]
  exact hclear

/-! ## The move -/

/-- The train is at the source, and the direction is the one of the transition. -/
def taken (s : TrainState X) : Bool :=
  s.bits (.permaloc t.source.name) && (!a.importsDirection t || s.bits (.helper t.key))

/-- The location bits after a move. -/
def moved (s : TrainState X) : TrainState X :=
  (((s.setBit (.permaloc t.source.name) false).setBit (.routingloc t.source.name) false).setBit
    (.permaloc t.dest.name) true).setBit (.routingloc t.dest.name) true

theorem permaloc_moved {w : TrainState X}
    (h : ∀ n, w.bits (.permaloc n) = s.bits (.permaloc n)) (n : String) :
    (moved t w).bits (.permaloc n) = if n = t.dest.name then true else
      if n = t.source.name then false else s.bits (.permaloc n) := by
  simp [moved, bits_setBit, h]

theorem helper_moved {w : TrainState X}
    (h : ∀ k, w.bits (.helper k) = s.bits (.helper k)) (k : HelperKey X) :
    (moved t w).bits (.helper k) = s.bits (.helper k) := by
  simp [moved, bits_setBit, h]

theorem helper_setDirection {w : TrainState X}
    (h : ∀ k, w.bits (.helper k) = s.bits (.helper k)) (value : Bool) (k : HelperKey X) :
    (a.setDirection t w value).bits (.helper k) =
      (a.setDirection t s value).bits (.helper k) := by
  unfold setDirection
  split
  · rw [bits_setBit, bits_setBit, h]
  · exact h k

omit [DecidableEq X] in
/-- The guards of the end of a route. -/
theorem testAll_taken (heager : t.eager = false) (ht : t ∈ a.transitions) (h : Imported a t s)
    (state : Nat) :
    testAll control s ([ifState state, ifReg1 (goesBy t)] ++
      maybe (a.respectDirection t.source.name) (ifReg currentDirection true)) =
      some (s.control.state == UInt8.ofNat state && a.taken t s) := by
  rw [a.respectDirection_eq t ht, goesBy, heager, if_neg Bool.false_ne_true, taken]
  cases hd : a.importsDirection t with
  | false =>
    refine (testAll_cons_control (Query.ifState state) <|
      testAll_cons_bit (r := .slot currentBlockPermaloc) h.permaloc true testAll_nil).trans ?_
    simp [control]
  | true =>
    refine (testAll_cons_control (Query.ifState state) <|
      testAll_cons_bit (r := .slot currentBlockPermaloc) h.permaloc true <|
      testAll_cons_bit (r := .slot currentDirection) (h.direction hd) true testAll_nil).trans ?_
    simp [control]

theorem performAll_releaseLock (s : TrainState X) :
    ∃ u, performAll control s (releaseLock t.lock) = some u ∧ LayoutOnly s u := by
  refine performAll_layoutOnly fun act hact => ?_
  obtain ⟨v, -, rfl⟩ := List.mem_map.mp hact
  exact ⟨_, _, v, rfl, rfl⟩

/-- A transition moves the train in the state for it, if it has been taken. -/
theorem exec_requestTransition_eq (heager : t.eager = false) (ht : t ∈ a.transitions)
    (h : Imported a t s) :
    if s.control.state = UInt8.ofNat stRequestTransition ∧ a.taken t s = true then
      ∃ u, LayoutOnly s u ∧ (a.requestTransition t).exec control s =
        some (goTo (a.setDirection t (moved t u) false) stTransitionDone)
    else (a.requestTransition t).exec control s = some s := by
  have hguards := a.testAll_taken t heager ht h stRequestTransition
  split
  · next hmove =>
    obtain ⟨hstate, htaken⟩ := hmove
    have hsource : s.bits (.permaloc t.source.name) = true := (Bool.and_eq_true_iff.mp htaken).1
    obtain ⟨u, hu, hlayout⟩ := performAll_releaseLock t s
    have hu' := h.layoutOnly hlayout
    have here := (h.here hsource).of_bound hlayout.bound
    refine ⟨u, hlayout, ?_⟩
    rw [hstate, htaken, beq_self_eq_true, Bool.true_and] at hguards
    have hactions : (a.requestTransition t).actions = releaseLock t.lock ++
        (actReg0 currentBlockPermaloc :: actReg0 currentBlockRoutingloc ::
          actReg1 nextBlockPermaloc :: actReg1 nextBlockRoutingloc ::
          (maybe (a.respectDirection t.source.name) (actReg currentDirection false) ++
            [actState stTransitionDone])) := by
      simp [requestTransition, heager, maybe]
    rw [exec_of_testAll hguards, hactions, performAll_append, hu, Option.bind_some,
      performAll_write (r := .slot currentBlockPermaloc) hu'.permaloc,
      performAll_write (r := .slot currentBlockRoutingloc)
        ((lookup_setBit ..).trans hu'.routingloc),
      performAll_write (r := .slot nextBlockPermaloc)
        (((lookup_setBit ..).trans (lookup_setBit ..)).trans here.nextPermaloc),
      performAll_write (r := .slot nextBlockRoutingloc)
        ((((lookup_setBit ..).trans (lookup_setBit ..)).trans (lookup_setBit ..)).trans
          here.nextRoutingloc),
      a.respectDirection_eq t ht, setDirection]
    cases hd : a.importsDirection t with
    | false => rfl
    | true =>
      rw [maybe, if_pos rfl, if_pos rfl]
      exact performAll_write (r := .slot currentDirection) (s := moved t u) (hu'.direction hd)
        false _
  · next hstay =>
    refine exec_skip (hguards.trans ?_)
    rw [Option.some_inj, Bool.and_eq_false_iff, beq_eq_false_iff_ne, ← Bool.not_eq_true]
    exact not_and_or.mp hstay

/-- A transition ends an attempt that failed, if it has been taken. -/
theorem exec_greenFailed_eq (heager : t.eager = false) (ht : t ∈ a.transitions)
    (h : Imported a t s) :
    if s.control.state = UInt8.ofNat stGreenFailed ∧ a.taken t s = true then
      ∃ u, LayoutOnly s u ∧ (a.greenFailed t).exec control s = some (goTo u stWaiting)
    else (a.greenFailed t).exec control s = some s := by
  have hguards := a.testAll_taken t heager ht h stGreenFailed
  split
  · next hfailed =>
    obtain ⟨hstate, htaken⟩ := hfailed
    obtain ⟨u, hu, hlayout⟩ := performAll_releaseLock t s
    refine ⟨u, hlayout, ?_⟩
    rw [hstate, htaken, beq_self_eq_true, Bool.true_and] at hguards
    rw [exec_of_testAll hguards]
    refine (performAll_append (releaseLock t.lock) [actState stWaiting]).trans ?_
    rw [hu]
    rfl
  · next hstay =>
    refine exec_skip (hguards.trans ?_)
    rw [Option.some_inj, Bool.and_eq_false_iff, beq_eq_false_iff_ne, ← Bool.not_eq_true]
    exact not_and_or.mp hstay

/-! ## The outcome of a transition -/

/-- The permaloc and direction bits of a state, but for the direction of the transition, which is
set to a value if there is one. -/
structure Keeping (value : Option Bool) (s s' : TrainState X) : Prop where
  permaloc : SamePermalocs s s'
  helper : ∀ k, s'.bits (.helper k) =
    ((value.map (a.setDirection t s)).getD s).bits (.helper k)

/-- What a transition does, by where the train is and by the state of the automaton. -/
inductive Outcome (s s' : TrainState X) : Prop where
  | elsewhere (hsource : s.bits (.permaloc t.source.name) = false)
      (hstate : s'.control.state = s.control.state ∨
        Undecided s ∧ s'.control.state = UInt8.ofNat stWaiting)
      (hkeeping : Keeping a t none s s')
  | waits (hsource : s.bits (.permaloc t.source.name) = true) (hundecided : Undecided s)
      (hstate : s'.control.state = UInt8.ofNat stWaiting) (hkeeping : Keeping a t (some false) s s')
  | goes (hsource : s.bits (.permaloc t.source.name) = true) (hundecided : Undecided s)
      (hadmits : t.admits s = true) (hstate : s'.control.state = UInt8.ofNat stReadyToGo)
      (hkeeping : Keeping a t (some true) s s')
  | rests (hsource : s.bits (.permaloc t.source.name) = true) (hdecided : ¬ Undecided s)
      (hstate : s'.control.state = s.control.state) (hkeeping : Keeping a t none s s')
  | fails (hstate : s.control.state = UInt8.ofNat stGreenFailed) (htaken : a.taken t s = true)
      (hstate' : s'.control.state = UInt8.ofNat stWaiting) (hkeeping : Keeping a t none s s')
  | moves (hstate : s.control.state = UInt8.ofNat stRequestTransition)
      (htaken : a.taken t s = true) (hstate' : s'.control.state = UInt8.ofNat stTransitionDone)
      (hpermaloc : ∀ n, s'.bits (.permaloc n) = if n = t.dest.name then true else
        if n = t.source.name then false else s.bits (.permaloc n))
      (hhelper : ∀ k, s'.bits (.helper k) = (a.setDirection t s false).bits (.helper k))

/-- What a transition leaves bound for the calls behind it. -/
structure LeavesBound (s s' : TrainState X) : Prop where
  permaloc : s'.bound currentBlockPermaloc = some (.permaloc t.source.name)
  routingloc : s'.bound currentBlockRoutingloc = some (.routingloc t.source.name)
  direction : a.importsDirection t = true → s'.bound currentDirection = some (.helper t.key)
  copied : s'.control.state ≠ UInt8.ofNat stTransitionDone →
    s'.bits (.routingloc t.source.name) = s.bits (.permaloc t.source.name)
  here : s.bits (.permaloc t.source.name) = true → (s'.bound currentBlockDetector).isSome ∧
    (s'.bound routingBlockRequestGreen).isSome ∧ (s'.bound routingBlockRouteOut).isSome

/-- The operations behind the imports. -/
def decision : List (TrainOp X) :=
  testCondition t ++ requestPermit t ++ a.decideToGo t ++
    [a.requestTransition t, a.greenFailed t]

theorem run_decision {s₁ s₂ s₃ s₄ s₅ : TrainState X}
    (h₁ : run control s (testCondition t) = some s₁)
    (h₂ : run control s₁ (requestPermit t) = some s₂)
    (h₃ : run control s₂ (a.decideToGo t) = some s₃)
    (h₄ : (a.requestTransition t).exec control s₃ = some s₄)
    (h₅ : (a.greenFailed t).exec control s₄ = some s₅) :
    run control s (a.decision t) = some s₅ := by
  rw [decision]
  refine run_append_eq_some.mpr ⟨s₃, run_append_eq_some.mpr ⟨s₂, run_append_eq_some.mpr
    ⟨s₁, h₁, h₂⟩, h₃⟩, ?_⟩
  exact run_cons_eq_some.mpr ⟨s₄, h₄, (run_singleton _).trans h₅⟩

/-- A state in which the train is not moved and no attempt ends. -/
theorem exec_end_of_other (heager : t.eager = false) (ht : t ∈ a.transitions)
    (h : Imported a t s)
    (hmove : ¬ (s.control.state = UInt8.ofNat stRequestTransition ∧ a.taken t s = true))
    (hfail : ¬ (s.control.state = UInt8.ofNat stGreenFailed ∧ a.taken t s = true)) :
    (a.requestTransition t).exec control s = some s ∧
      (a.greenFailed t).exec control s = some s := by
  have hrequest := a.exec_requestTransition_eq t heager ht h
  have hgreen := a.exec_greenFailed_eq t heager ht h
  rw [if_neg hmove] at hrequest
  rw [if_neg hfail] at hgreen
  exact ⟨hrequest, hgreen⟩

/-- With the train elsewhere, only a test that was not finished is given up. -/
theorem decision_elsewhere (heager : t.eager = false) (ht : t ∈ a.transitions)
    (h : Imported a t s) (hsource : s.bits (.permaloc t.source.name) = false) : ∃ u s',
      run control s (a.decision t) = some s' ∧ LayoutOnly u s' ∧
      (u = s ∨ Undecided s ∧ u = goTo s stWaiting) := by
  obtain ⟨u, hu, hcases, htest, htest2⟩ : ∃ u, run control s (testCondition t) = some u ∧
      (u = s ∨ Undecided s ∧ u = goTo s stWaiting) ∧
      u.control.state ≠ UInt8.ofNat stTestCondition ∧
      u.control.state ≠ UInt8.ofNat stTestCondition2 := by
    by_cases hundecided : Undecided s
    · refine ⟨goTo s stWaiting, ?_, .inr ⟨hundecided, rfl⟩, ?_, ?_⟩
      · rw [run_testCondition a t heager h hundecided, hsource, if_neg Bool.false_ne_true]
      · exact show UInt8.ofNat stWaiting ≠ UInt8.ofNat stTestCondition by decide
      · exact show UInt8.ofNat stWaiting ≠ UInt8.ofNat stTestCondition2 by decide
    · exact ⟨s, run_testCondition_of_decided t hundecided, .inl rfl,
        fun h => hundecided (.inr (.inl h)), fun h => hundecided (.inr (.inr h))⟩
  have himported : Imported a t u := by
    rcases hcases with rfl | ⟨-, rfl⟩
    · exact h
    · exact h.goTo stWaiting
  have hu_source : u.bits (.permaloc t.source.name) = false := by
    rcases hcases with rfl | ⟨-, rfl⟩ <;> exact hsource
  obtain ⟨s', hs', hlayout, -⟩ := run_requestPermit a t himported
  have hs'_source : s'.bits (.permaloc t.source.name) = false :=
    (hlayout.own _ (by simp)).trans hu_source
  have htaken : a.taken t s' ≠ true := by simp [taken, hs'_source]
  obtain ⟨hrequest, hgreen⟩ := a.exec_end_of_other t heager ht (himported.layoutOnly hlayout)
    (fun h => htaken h.2) (fun h => htaken h.2)
  refine ⟨u, s', a.run_decision t hu hs' ?_ hrequest hgreen, hlayout, hcases⟩
  exact a.run_decideToGo_of_decided t ht (himported.layoutOnly hlayout)
    (by rw [hlayout.control]; exact htest) (by rw [hlayout.control]; exact htest2)
    fun _ => hs'_source

/-- With the train at the source, in the states of a route: it moves, an attempt ends, or nothing
happens. -/
theorem decision_decided (heager : t.eager = false) (ht : t ∈ a.transitions)
    (h : Imported a t s) (hdecided : ¬ Undecided s) : ∃ u s', LayoutOnly s u ∧
      run control s (a.decision t) = some s' ∧
      (s' = u ∨
        (s.control.state = UInt8.ofNat stGreenFailed ∧ a.taken t s = true ∧
          ∃ w, LayoutOnly u w ∧ s' = goTo w stWaiting) ∨
        s.control.state = UInt8.ofNat stRequestTransition ∧ a.taken t s = true ∧
          ∃ w, LayoutOnly u w ∧
            s' = goTo (a.setDirection t (moved t w) false) stTransitionDone) := by
  obtain ⟨u, hu, hlayout, -⟩ := run_requestPermit a t h
  have himported := h.layoutOnly hlayout
  have hstate : u.control.state = s.control.state := by rw [hlayout.control]
  have htaken : a.taken t u = a.taken t s := by
    rw [taken, taken, hlayout.own _ (by simp), hlayout.own _ (by simp)]
  have hdecide := a.run_decideToGo_of_decided t ht himported
    (fun h => hdecided (.inr (.inl (hstate.symm.trans h))))
    (fun h => hdecided (.inr (.inr (hstate.symm.trans h))))
    (fun h => absurd (.inl (hstate.symm.trans h)) hdecided)
  have htest := run_testCondition_of_decided t hdecided
  have hrequest := a.exec_requestTransition_eq t heager ht himported
  have hgreen := a.exec_greenFailed_eq t heager ht himported
  by_cases hmove : u.control.state = UInt8.ofNat stRequestTransition ∧ a.taken t u = true
  · rw [if_pos hmove] at hrequest
    obtain ⟨w, hw, hrequest⟩ := hrequest
    refine ⟨u, _, hlayout, a.run_decision t htest hu hdecide hrequest (exec_other_state ?_ _ _),
      .inr (.inr ⟨hstate.symm.trans hmove.1, htaken.symm.trans hmove.2, w, hw, rfl⟩)⟩
    exact show UInt8.ofNat stTransitionDone ≠ UInt8.ofNat stGreenFailed by decide
  · rw [if_neg hmove] at hrequest
    by_cases hfail : u.control.state = UInt8.ofNat stGreenFailed ∧ a.taken t u = true
    · rw [if_pos hfail] at hgreen
      obtain ⟨w, hw, hgreen⟩ := hgreen
      exact ⟨u, _, hlayout, a.run_decision t htest hu hdecide hrequest hgreen,
        .inr (.inl ⟨hstate.symm.trans hfail.1, htaken.symm.trans hfail.2, w, hw, rfl⟩)⟩
    · rw [if_neg hfail] at hgreen
      exact ⟨u, u, hlayout, a.run_decision t htest hu hdecide hrequest hgreen, .inl rfl⟩

/-- The decision behind a test. -/
theorem decision_of_waiting (heager : t.eager = false) (ht : t ∈ a.transitions)
    {s₁ s₂ s₃ : TrainState X} (h₁ : run control s (testCondition t) = some s₁)
    (h₂ : run control s₁ (requestPermit t) = some s₂)
    (h₃ : run control s₂ (a.decideToGo t) = some s₃) (h : Imported a t s₃)
    (hstate : s₃.control.state = UInt8.ofNat stWaiting ∨
      s₃.control.state = UInt8.ofNat stReadyToGo) :
    run control s (a.decision t) = some s₃ := by
  have hother : s₃.control.state ≠ UInt8.ofNat stRequestTransition ∧
      s₃.control.state ≠ UInt8.ofNat stGreenFailed := by
    rcases hstate with hstate | hstate <;> rw [hstate] <;> decide
  obtain ⟨hrequest, hgreen⟩ := a.exec_end_of_other t heager ht h
    (fun h => hother.1 h.1) (fun h => hother.2 h.1)
  exact a.run_decision t h₁ h₂ h₃ hrequest hgreen

theorem permitted_of_granted {u : TrainState X} (hnone : t.client = none → u = s)
    (hsome : ∀ client, t.client = some client → u.bits (.layout client.request) = true →
      u = s.setBit (.layout client.request) true) (h : t.granted u = true) :
    t.permitted s = true := by
  rw [Transition.granted] at h
  rw [Transition.permitted]
  cases hclient : t.client with
  | none =>
    rw [hnone hclient, hclient] at h
    exact h
  | some client =>
    rw [hclient] at h
    simp only [Option.all_some, Bool.and_eq_true] at h ⊢
    obtain ⟨⟨hrequest, hgranted⟩, hfree⟩ := h
    rw [← hsome client hclient hrequest]
    exact ⟨hgranted, hfree⟩

/-- With the train at the source, when it waits: it goes ahead, or it goes on waiting. -/
theorem decision_undecided (heager : t.eager = false) (ht : t ∈ a.transitions)
    (h : Imported a t s) (hsource : s.bits (.permaloc t.source.name) = true)
    (hundecided : Undecided s) : ∃ u s', run control s (a.decision t) = some s' ∧
      (∃ state, LayoutOnly (goTo s state) u) ∧
      (s' = a.setDirection t (goTo u stWaiting) false ∨
        t.admits s = true ∧ s' = goTo (a.setDirection t u true) stReadyToGo) := by
  have htest := run_testCondition a t heager h hundecided
  rw [hsource, if_pos rfl] at htest
  have hgoTo := h.goTo (if t.tests s then stTestCondition2 else stTestCondition)
  obtain ⟨u, hu, hlayout, hnone, hsome⟩ := run_requestPermit a t hgoTo
  have himported := hgoTo.layoutOnly hlayout
  have husource : u.bits (.permaloc t.source.name) = true :=
    (hlayout.own _ (by simp)).trans hsource
  have hstate : u.control.state =
      UInt8.ofNat (if t.tests s then stTestCondition2 else stTestCondition) := by
    rw [hlayout.control]
    rfl
  have hwaiting : (a.setDirection t (goTo u stWaiting) false).control.state =
      UInt8.ofNat stWaiting := by rw [control_setDirection]; rfl
  have himported' := a.imported_setDirection t (himported.goTo stWaiting) false
  cases htests : t.tests s with
  | false =>
    rw [htests, if_neg Bool.false_ne_true] at hstate
    have hdecide := a.run_decideToGo_of_failed t ht himported husource hstate
    exact ⟨u, _, a.decision_of_waiting t heager ht htest hu hdecide himported' (.inl hwaiting),
      ⟨_, hlayout⟩, .inl rfl⟩
  | true =>
    rw [htests, if_pos rfl] at hstate
    cases hgranted : t.granted u with
    | false =>
      have hdecide := a.run_decideToGo_of_refused t ht himported husource hstate hgranted
      exact ⟨u, _, a.decision_of_waiting t heager ht htest hu hdecide himported' (.inl hwaiting),
        ⟨_, hlayout⟩, .inl rfl⟩
    | true =>
      obtain ⟨w, hw, hdecide⟩ := a.run_decideToGo_of_granted t ht himported hstate hgranted
      have himported'' := (a.imported_setDirection t (himported.layoutOnly hw) true).goTo
        stReadyToGo
      rw [htests, if_pos rfl] at hnone hsome
      have hpermitted : t.permitted (goTo s stTestCondition2) = true :=
        permitted_of_granted t hnone (hsome rfl) hgranted
      refine ⟨w, _, a.decision_of_waiting t heager ht htest hu hdecide himported'' (.inr rfl),
        ⟨_, hlayout.trans hw⟩, .inr ⟨?_, rfl⟩⟩
      rw [Transition.admits, htests, Bool.true_and]
      exact hpermitted

/-- What the imports have changed: the routingloc of the source only. -/
structure ImportsOnly (s s₁ : TrainState X) : Prop where
  control : s₁.control = s.control
  bits : ∀ v, v ≠ .routingloc t.source.name → s₁.bits v = s.bits v

section ImportsOnly

variable {t} {s₁ : TrainState X} (h : ImportsOnly t s s₁)

include h

omit [DecidableEq X] in
theorem ImportsOnly.undecided : Undecided s₁ ↔ Undecided s := by
  rw [Undecided, Undecided, h.control]

omit [DecidableEq X] in
theorem ImportsOnly.taken : a.taken t s₁ = a.taken t s := by
  rw [Schedule.taken, Schedule.taken, h.bits _ (by simp), h.bits _ (by simp)]

theorem ImportsOnly.admits : t.admits s₁ = t.admits s := by
  have hlayout : ∀ x, s₁.bits (.layout x) = s.bits (.layout x) := fun x => h.bits _ (by simp)
  have htests : t.tests s₁ = t.tests s := by
    simp only [Transition.tests, holdsAll, hlayout, h.bits .isFrozen (by simp)]
  have hpermitted : t.permitted s₁ = t.permitted s := by
    unfold Transition.permitted
    cases t.client with
    | none => simp only [lockIsFree, hlayout]
    | some client => simp only [lockIsFree, bits_setBit, hlayout]
  rw [Transition.admits, Transition.admits, htests, hpermitted]

/-- What has kept its own bits behind the imports has kept them in all. -/
theorem ImportsOnly.keeping {u : TrainState X} {value : Option Bool}
    (hown : ∀ v, (∀ x, v ≠ .layout x) → s'.bits v =
      ((value.map (a.setDirection t u)).getD u).bits v)
    (hu : ∀ v, (∀ x, v ≠ .layout x) → u.bits v = s₁.bits v) : Keeping a t value s s' := by
  have hbits : ∀ v, (∀ x, v ≠ .layout x) → v ≠ .routingloc t.source.name →
      u.bits v = s.bits v := fun v hv hne => (hu v hv).trans (h.bits v hne)
  refine ⟨fun n => ?_, fun k => ?_⟩
  · rw [hown _ (by simp)]
    cases value with
    | none => exact hbits _ (by simp) (by simp)
    | some value =>
      exact (a.bits_setDirection t u value (by simp)).trans (hbits _ (by simp) (by simp))
  · rw [hown _ (by simp)]
    cases value with
    | none => exact hbits _ (by simp) (by simp)
    | some value =>
      simp only [Option.map_some, Option.getD_some, setDirection]
      split
      · rw [bits_setBit, bits_setBit, hbits _ (by simp) (by simp)]
      · exact hbits _ (by simp) (by simp)

end ImportsOnly

omit [DecidableEq X] in
theorem leavesBound_of_imported (h : Imported a t s')
    (hsource : s'.bits (.permaloc t.source.name) = s.bits (.permaloc t.source.name)) :
    LeavesBound a t s s' where
  permaloc := h.permaloc
  routingloc := h.routingloc
  direction := h.direction
  copied _ := h.copied.trans hsource
  here hset := by
    have here := h.here (hsource.trans hset)
    rw [here.detector, here.requestGreen, here.routeOut]
    exact ⟨rfl, rfl, rfl⟩

/-- A transition that is not eager never uses a variable that is not bound, and does one of the
things of `Outcome`. -/
theorem transition_outcome (heager : t.eager = false) (ht : t ∈ a.transitions)
    (s : TrainState X) : ∃ s', run control s (a.addBlockTransitionOnPermit t) = some s' ∧
      Outcome a t s s' ∧ LeavesBound a t s s' := by
  obtain ⟨s₁, himports, himported, hcontrol, hbits⟩ := a.run_imports t heager s
  have honly : ImportsOnly t s s₁ := ⟨hcontrol, hbits⟩
  have hrun : ∀ s', run control s₁ (a.decision t) = some s' →
      run control s (a.addBlockTransitionOnPermit t) = some s' := by
    intro s' hs'
    have heq : a.addBlockTransitionOnPermit t = a.imports t ++ a.decision t := by
      simp only [addBlockTransitionOnPermit, imports, decision, List.append_assoc]
    rw [heq]
    exact run_append_eq_some.mpr ⟨s₁, himports, hs'⟩
  have hpermaloc : s₁.bits (.permaloc t.source.name) = s.bits (.permaloc t.source.name) :=
    hbits _ (by simp)
  cases hsource : s.bits (.permaloc t.source.name) with
  | false =>
    obtain ⟨u, s', hs', hlayout, hcases⟩ :=
      a.decision_elsewhere t heager ht himported (hpermaloc.trans hsource)
    have hown : ∀ v, (∀ x, v ≠ .layout x) → u.bits v = s₁.bits v := by
      rcases hcases with rfl | ⟨-, rfl⟩ <;> exact fun _ _ => rfl
    have himported' : Imported a t u := by
      rcases hcases with rfl | ⟨-, rfl⟩
      · exact himported
      · exact himported.goTo stWaiting
    have hkeeping : Keeping a t none s s' := honly.keeping a hlayout.own hown
    refine ⟨s', hrun s' hs', .elsewhere hsource ?_ hkeeping,
      leavesBound_of_imported a t (himported'.layoutOnly hlayout) (hkeeping.permaloc _)⟩
    rcases hcases with rfl | ⟨hundecided, rfl⟩
    · rw [hlayout.control, hcontrol]
      exact .inl rfl
    · rw [hlayout.control]
      exact .inr ⟨honly.undecided.mp hundecided, rfl⟩
  | true =>
    have hsource' := hpermaloc.trans hsource
    by_cases hundecided : Undecided s
    · obtain ⟨u, s', hs', ⟨state, hlayout⟩, hcases⟩ := a.decision_undecided t heager ht himported
        hsource' (honly.undecided.mpr hundecided)
      have himported' : Imported a t u := (himported.goTo state).layoutOnly hlayout
      rcases hcases with rfl | ⟨hadmits, rfl⟩
      · have hkeeping : Keeping a t (some false) s (a.setDirection t (goTo u stWaiting) false) :=
          honly.keeping a (fun _ _ => rfl) hlayout.own
        refine ⟨_, hrun _ hs', .waits hsource hundecided ?_ hkeeping, leavesBound_of_imported a t
          (a.imported_setDirection t (himported'.goTo stWaiting) false) (hkeeping.permaloc _)⟩
        rw [control_setDirection]
        rfl
      · have hkeeping : Keeping a t (some true) s (goTo (a.setDirection t u true) stReadyToGo) :=
          honly.keeping a (fun _ _ => rfl) hlayout.own
        exact ⟨_, hrun _ hs', .goes hsource hundecided ((honly.admits).symm.trans hadmits) rfl
          hkeeping, leavesBound_of_imported a t
            ((a.imported_setDirection t himported' true).goTo stReadyToGo) (hkeeping.permaloc _)⟩
    · obtain ⟨u, s', hlayout, hs', hcases⟩ := a.decision_decided t heager ht himported
        (fun h => hundecided (honly.undecided.mp h))
      have himported' : Imported a t u := himported.layoutOnly hlayout
      rcases hcases with rfl | ⟨hstate, htaken, w, hw, rfl⟩ | ⟨hstate, htaken, w, hw, rfl⟩
      · have hkeeping : Keeping a t none s s' := honly.keeping a hlayout.own fun _ _ => rfl
        refine ⟨s', hrun s' hs', .rests hsource hundecided ?_ hkeeping,
          leavesBound_of_imported a t himported' (hkeeping.permaloc _)⟩
        rw [hlayout.control, hcontrol]
      · have hkeeping : Keeping a t none s (goTo w stWaiting) :=
          honly.keeping a (hlayout.trans hw).own fun _ _ => rfl
        exact ⟨_, hrun _ hs', .fails (hcontrol ▸ hstate) ((honly.taken a).symm.trans htaken) rfl
          hkeeping, leavesBound_of_imported a t ((himported'.layoutOnly hw).goTo stWaiting)
            (hkeeping.permaloc _)⟩
      · have hlayout' := hlayout.trans hw
        have hbound : (goTo (a.setDirection t (moved t w) false) stTransitionDone).bound =
            s₁.bound := (a.bound_setDirection t (moved t w) false).trans hlayout'.bound
        have here := himported.here hsource'
        refine ⟨_, hrun _ hs', .moves (hcontrol ▸ hstate) ((honly.taken a).symm.trans htaken) rfl
          (fun n => ?_) fun k => ?_, ⟨?_, ?_, ?_, ?_, fun _ => ?_⟩⟩
        · exact (a.bits_setDirection t (moved t w) false (by simp)).trans
            (permaloc_moved t (fun m => (hlayout'.own _ (by simp)).trans (honly.bits _ (by simp))) n)
        · exact a.helper_setDirection t (helper_moved t fun k =>
            (hlayout'.own _ (by simp)).trans (honly.bits _ (by simp))) false k
        · rw [hbound, himported.permaloc]
        · rw [hbound, himported.routingloc]
        · rw [hbound]
          exact himported.direction
        · exact fun hdone => absurd rfl hdone
        · rw [hbound, here.detector, here.requestGreen, here.routeOut]
          simp

end Schedule

end OpenmrnCue.TrainSchedule
