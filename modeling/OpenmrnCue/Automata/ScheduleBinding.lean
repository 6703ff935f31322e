import OpenmrnCue.Library.Trace
import OpenmrnCue.Automata.ScheduleTransitions

/-! Histories of a schedule: between its runs, the environment changes all bits but those of the
locations and the directions, and the timer.  No run of such a history uses a local variable that is
not bound, where the train stands at a block that a call takes for its current one. -/

namespace OpenmrnCue.TrainSchedule

open LateBinding Local
open Automata (stInit stBase)

variable {X : Type} [DecidableEq X] {s s' u : TrainState X}

/-! ## The environment -/

/-- The permaloc, routingloc and direction bits of a schedule. -/
def Var.isOwn : Var X → Bool
  | .permaloc _ => true
  | .routingloc _ => true
  | .helper _ => true
  | _ => false

/-- What has changed before a run. -/
structure Change (X : Type) where
  bits : Var X → Bool
  timer : UInt8

def Change.apply (c : Change X) (s : TrainState X) : TrainState X where
  control := { s.control with timer := c.timer }
  bits v := if v.isOwn then s.bits v else c.bits v
  bound := s.bound

omit [DecidableEq X] in
@[simp] theorem state_apply (c : Change X) (s : TrainState X) :
    (c.apply s).control.state = s.control.state := rfl

omit [DecidableEq X] in
theorem bits_apply (c : Change X) (s : TrainState X) {v : Var X} (h : v.isOwn = true) :
    (c.apply s).bits v = s.bits v := if_pos h

/-- A change, and a run behind it. -/
def Schedule.step (a : Schedule X) (calls : List (Placed X)) (s : TrainState X) (c : Change X) :
    Option (TrainState X) := a.runOnce calls (c.apply s)

/-! ## Changes of the state -/

/-- The state changes by operations for a state, and only to the states that it may go to. -/
def Edges (may : Nat → Nat → Prop) (ops : List (TrainOp X)) : Prop :=
  ∀ op ∈ ops, ∀ n, actState n ∈ op.actions → ∃ m, ifState m ∈ op.guards ∧ may m n

omit [DecidableEq X] in
theorem Edges.append {may : Nat → Nat → Prop} {ops ops' : List (TrainOp X)} (h : Edges may ops)
    (h' : Edges may ops') : Edges may (ops ++ ops') := by
  intro op hop
  rcases List.mem_append.mp hop with hop | hop
  · exact h op hop
  · exact h' op hop

theorem state_performAll {acts : List (Act X)} (h : performAll control s acts = some s') :
    s'.control.state = s.control.state ∨
      ∃ n, actState n ∈ acts ∧ s'.control.state = UInt8.ofNat n := by
  induction acts generalizing s with
  | nil =>
    cases h
    exact .inl rfl
  | cons act rest ih =>
    rw [performAll_cons] at h
    obtain ⟨u, hu, hrest⟩ := Option.bind_eq_some_iff.mp h
    have hfirst : u.control.state = s.control.state ∨
        ∃ n, actState n = act ∧ u.control.state = UInt8.ofNat n := by
      cases act with
      | write r value =>
        obtain ⟨v, -, rfl⟩ := Option.map_eq_some_iff.mp hu
        exact .inl rfl
      | use r =>
        obtain ⟨v, -, rfl⟩ := Option.map_eq_some_iff.mp hu
        exact .inl rfl
      | bind l v =>
        obtain rfl := Option.some.inj hu
        exact .inl rfl
      | control c =>
        obtain rfl := Option.some.inj hu
        cases c with
        | actState n => exact .inr ⟨n, rfl, rfl⟩
        | _ => exact .inl rfl
    rcases ih hrest with hsame | ⟨n, hn, hstate⟩
    · rcases hfirst with hfirst | ⟨n, rfl, hfirst⟩
      · exact .inl (hsame.trans hfirst)
      · exact .inr ⟨n, List.mem_cons_self, hsame.trans hfirst⟩
    · exact .inr ⟨n, List.mem_cons_of_mem act hn, hstate⟩

/-- What no change of the state ends. -/
theorem Edges.run {may : Nat → Nat → Prop} {ops : List (TrainOp X)} (h : Edges may ops)
    {I : UInt8 → Prop} (hI : ∀ m n, may m n → I (UInt8.ofNat m) → I (UInt8.ofNat n))
    (hrun : run control s ops = some s') (hs : I s.control.state) : I s'.control.state := by
  refine run_keeps (I := fun u => I u.control.state) (fun op hop u v hu hexec => ?_) hrun hs
  rcases exec_cases hexec with rfl | ⟨hguards, hperform⟩
  · exact hu
  · rcases state_performAll hperform with hsame | ⟨n, hn, hstate⟩
    · exact hsame ▸ hu
    · obtain ⟨m, hm, hmay⟩ := h op hop n hn
      have htest := Option.some.inj (hguards _ hm)
      have hm' : u.control.state = UInt8.ofNat m := beq_iff_eq.mp htest
      rw [hstate]
      exact hI m n hmay (hm' ▸ hu)

/-- The states of a train that is about to get its route. -/
def underway : List Nat := [stReadyToGo, stTurnout, stTurnoutFailed, stRequestGreen, stGreenRequested]

def Underway (state : UInt8) : Prop := ∃ n ∈ underway, state = UInt8.ofNat n

instance (state : UInt8) : Decidable (Underway state) :=
  inferInstanceAs (Decidable (∃ n ∈ underway, state = UInt8.ofNat n))

/-- Such a change does not set out. -/
def Onward (m n : Nat) : Prop := Underway (UInt8.ofNat n) → Underway (UInt8.ofNat m)

instance (m n : Nat) : Decidable (Onward m n) := inferInstanceAs (Decidable (_ → _))

/-- Such a change does not set out, and does not leave the state behind a move. -/
def Quiet (m n : Nat) : Prop := Onward m n ∧ UInt8.ofNat m ≠ UInt8.ofNat stTransitionDone

instance (m n : Nat) : Decidable (Quiet m n) := inferInstanceAs (Decidable (_ ∧ _))

namespace Schedule

variable (a : Schedule X)

omit [DecidableEq X] in
theorem edges_stopTrainAt (dest : SignalBlock X) : Edges Quiet (stopTrainAt dest) := by
  simp [Edges, stopTrainAt, mapCurrentBlockPermaloc]

omit [DecidableEq X] in
theorem edges_stopAndReverseAtStub (inSignal : SignalBlock X) :
    Edges Quiet (a.stopAndReverseAtStub inSignal) := by
  have hquiet : Quiet stWaiting stBeforeReverseWait ∧
      Quiet stBeforeReverseWait stReverseSendCommand ∧
      Quiet stReverseSendCommand stReverseDoneWait ∧ Quiet stReverseDoneWait stWaiting := by
    decide
  simp [Edges, stopAndReverseAtStub, mapCurrentBlockPermaloc, hquiet]

omit [DecidableEq X] in
theorem edges_switchTurnout {may : Nat → Nat → Prop} (hmay : may stTurnout stTurnoutFailed)
    (location : String) (magnet : Magnet X) (desiredState : Bool) :
    Edges may (a.switchTurnout location magnet desiredState) := by
  simp [Edges, switchTurnout, hmay]

/-- The changes of the state behind the calls. -/
def baseEdges : List (Nat × Nat) :=
  [(stRequestGreen, stGreenRequested), (stGreenRequested, stGreenFailed),
    (stGreenRequested, stRequestTransition), (stGreenRequested, stGreenWait),
    (stGreenWait, stRequestTransition), (stTransitionDone, stWaiting), (stTurnout, stRequestGreen),
    (stReadyToGo, stTurnout), (stTurnoutFailed, stWaiting), (stTurnoutFailed, stTurnout),
    (stWaiting, stFrozen), (stFrozen, stWaiting), (stBase, stWaiting), (stInit, stBase)]

omit [DecidableEq X] in
theorem edges_afterTransition {may : Nat → Nat → Prop} (hmay : ∀ p ∈ baseEdges, may p.1 p.2) :
    Edges may a.afterTransition := by
  simp only [baseEdges, List.forall_mem_cons, List.not_mem_nil, false_implies, implies_true,
    and_true] at hmay
  refine ((Edges.append ?_ ?_).append ?_).append ?_
  · simp [Edges, handleBaseStates, hmay, or_imp, forall_and]
  · unfold sendTrainCommands
    split <;> simp [Edges]
  · simp [Edges, handleInit, hmay]
  · simp [Edges, handleInitState, hmay]

/-! ## Calls that are no transitions -/

/-- What such a call does: it comes to an end, keeps the permaloc bits, and its changes of the state
are quiet. -/
structure QuietRun (ops : List (TrainOp X)) (s s' : TrainState X) : Prop where
  run : LateBinding.run control s ops = some s'
  wellBound : WellBound kind s'
  permaloc : SamePermalocs s s'
  underway : Underway s'.control.state → Underway s.control.state
  done : s.control.state = UInt8.ofNat stTransitionDone →
    s'.control.state = UInt8.ofNat stTransitionDone

theorem quietRun_of_edges {ops : List (TrainOp X)} (hquiet : Edges Quiet ops)
    (hsame : WellBound kind s' ∧ SamePermalocs s s') (hrun : run control s ops = some s') :
    QuietRun ops s s' where
  run := hrun
  wellBound := hsame.1
  permaloc := hsame.2
  underway := by
    have hkeeps := hquiet.run (I := fun state => ¬ Underway state)
      (fun m n hmay hm hn => hm (hmay.1 hn)) hrun
    exact fun hs' => by_contra fun hs => hkeeps hs hs'
  done := hquiet.run (I := (· = UInt8.ofNat stTransitionDone))
    (fun m n hmay hm => absurd hm hmay.2) hrun

/-- `StopTrainAt` binds the detector of a block with the train. -/
theorem stopTrainAt_quiet (dest : SignalBlock X) (h : WellBound kind s) : ∃ s',
    QuietRun (stopTrainAt dest) s s' ∧
    (s.bits (.permaloc dest.name) = true → (s'.bound currentBlockDetector).isSome) := by
  obtain ⟨s', hrun, hdetector⟩ : ∃ s', run control s (stopTrainAt dest) = some s' ∧
      (s.bits (.permaloc dest.name) = true → (s'.bound currentBlockDetector).isSome) := by
    cases hbit : s.bits (.permaloc dest.name) <;>
      simp [stopTrainAt, mapCurrentBlockPermaloc, run_cons, Operation.exec, testAll, Guard.test,
        performAll_cons, Action.perform, bound_bind, hbit]
  refine ⟨s', quietRun_of_edges (edges_stopTrainAt dest) (mapped_same dest ?_ h hrun) hrun,
    hdetector⟩
  simp [MildOps, permalocs, kind]

/-- `StopAndReverseAtStub` begins in the same way. -/
theorem stopAndReverseAtStub_quiet (inSignal : SignalBlock X) (h : WellBound kind s) : ∃ s',
    QuietRun (a.stopAndReverseAtStub inSignal) s s' ∧
    (s.bits (.permaloc inSignal.name) = true → (s'.bound currentBlockDetector).isSome) := by
  obtain ⟨u, hquiet, hdetector⟩ := stopTrainAt_quiet inSignal h
  have hsplit : a.stopAndReverseAtStub inSignal =
      stopTrainAt inSignal ++ (a.stopAndReverseAtStub inSignal).drop 3 := rfl
  have hpermaloc : u.bound currentBlockPermaloc = some (.permaloc inSignal.name) := by
    obtain ⟨v, hv, hrest⟩ := run_append_eq_some.mp
      (show LateBinding.run control s (mapCurrentBlockPermaloc inSignal ++ _) = some u from
        hquiet.run)
    have hmapped := (mapCurrentBlockPermaloc_keeps h inSignal hv).2.2
    exact (bound_run (by simp) hrest).trans hmapped
  obtain ⟨s', hs'⟩ : ∃ s', run control u ((a.stopAndReverseAtStub inSignal).drop 3) =
      some s' := by
    cases hbit : u.bits (.permaloc inSignal.name) with
    | false =>
      -- The train is elsewhere.
      refine ⟨u, run_skip fun op hop => exec_skip ?_⟩
      simp only [stopAndReverseAtStub, mapCurrentBlockPermaloc, List.cons_append, List.nil_append,
        List.drop_succ_cons, List.drop_zero, List.mem_cons, List.not_mem_nil, or_false] at hop
      rcases hop with rfl | rfl | rfl | rfl | rfl | rfl | rfl | rfl | rfl | rfl <;>
        simp [testAll, Guard.test, hpermaloc, hbit]
    | true =>
      have hset := hdetector ((hquiet.permaloc _).symm.trans hbit)
      refine run_of_bound ?_
      simp [stopAndReverseAtStub, mapCurrentBlockPermaloc, Operation.Bound, Guard.Bound,
        Action.Bound, hpermaloc, hset]
  have hrun : run control s (a.stopAndReverseAtStub inSignal) = some s' := by
    rw [hsplit]
    exact run_append_eq_some.mpr ⟨u, hquiet.run, hs'⟩
  refine ⟨s', quietRun_of_edges (a.edges_stopAndReverseAtStub inSignal)
    (mapped_same inSignal ?_ h hrun) hrun, fun hset => extends_run hs' _ (hdetector hset)⟩
  simp [MildOps, permalocs, kind]

/-- `SwitchTurnout` behind a transition. -/
theorem switchTurnout_quiet (location : String) (magnet : Magnet X) (desiredState : Bool)
    (h : WellBound kind s) (hrouting : (s.bound currentBlockRoutingloc).isSome)
    (hdirection : a.respectDirection location = true → (s.bound currentDirection).isSome) :
    ∃ s', QuietRun (a.switchTurnout location magnet desiredState) s s' := by
  have hbound : ∀ g ∈ (ifState stTurnout :: a.addCurrentOutgoingConditions location : List (If X)),
      g.Bound s := by
    simp [addCurrentOutgoingConditions, Guard.Bound, hrouting, or_imp, forall_and]
    exact hdirection
  obtain ⟨s', hrun⟩ : ∃ s', run control s (a.switchTurnout location magnet desiredState) =
      some s' := by
    obtain ⟨holds, htest⟩ := testAll_of_bound (m := control) hbound
    cases holds with
    | false =>
      refine ⟨s, run_skip fun op hop => exec_skip ?_⟩
      simp only [switchTurnout, List.mem_cons, List.not_mem_nil, or_false] at hop
      rcases hop with rfl | rfl | rfl
      · exact htest
      · rw [testAll_append, htest]
        rfl
      · rw [testAll_append, htest]
        rfl
    | true =>
      -- The variables of the magnet are bound first.
      obtain ⟨w, hw, hmagnet⟩ : ∃ w, performAll control s
          [actImportVariable (.layout magnet.command) magnetCommand,
            actImportVariable (.layout magnet.currentState) magnetState,
            actImportVariable (.layout magnet.locked) magnetLocked] = some w ∧
          ∀ l ∈ [magnetCommand, magnetState, magnetLocked], (w.bound l).isSome :=
        ⟨_, rfl, by simp [bound_bind]⟩
      simp only [List.forall_mem_cons, List.not_mem_nil, false_implies, implies_true, and_true]
        at hmagnet
      have hfirst : (⟨ifState stTurnout :: a.addCurrentOutgoingConditions location, _⟩ :
          TrainOp X).exec control s = some w := (exec_of_testAll htest).trans hw
      have hext := extends_run ((run_singleton _).trans hfirst)
      have hrest : ∀ op ∈ (a.switchTurnout location magnet desiredState).drop 1, op.Bound w := by
        intro op hop
        simp only [switchTurnout, List.drop_succ_cons, List.drop_zero, List.mem_cons,
          List.not_mem_nil, or_false] at hop
        rcases hop with rfl | rfl
        · refine ⟨fun g hg => ?_, by simp [Action.Bound, hmagnet]⟩
          rcases List.mem_append.mp hg with hg | hg
          · exact (hbound g hg).mono hext
          · obtain rfl := List.mem_singleton.mp hg
            exact hmagnet.2.2
        · refine ⟨fun g hg => ?_, by simp [Action.Bound]⟩
          rcases List.mem_append.mp hg with hg | hg
          · exact (hbound g hg).mono hext
          · obtain rfl := List.mem_singleton.mp hg
            exact hmagnet.2.1
      obtain ⟨s', hs'⟩ := run_of_bound (m := control) hrest
      exact ⟨s', run_cons_eq_some.mpr ⟨_, hfirst, hs'⟩⟩
  have hkeeps := (a.mild_switchTurnout location magnet desiredState).keeps h hrun
  exact ⟨s', quietRun_of_edges (a.edges_switchTurnout (by decide) location magnet desiredState)
    ⟨hkeeps.wellBound, hkeeps.permaloc⟩ hrun⟩

/-! ## The base states -/

omit [DecidableEq X] in
/-- Behind the operations for a route, only the detector is used. -/
theorem bound_afterTransition_drop (hdetector : (s.bound currentBlockDetector).isSome) :
    ∀ op ∈ a.afterTransition.drop 4, op.Bound s := by
  have hbase : ∀ op ∈ a.handleBaseStates.drop 4, op.Bound s := by
    simp only [handleBaseStates, List.cons_append, List.nil_append, List.drop_succ_cons,
      List.drop_zero, List.forall_mem_cons, List.forall_mem_append, List.forall_mem_map]
    simp [Operation.Bound, Guard.Bound, Action.Bound, hdetector]
  have hcommands : ∀ op ∈ a.sendTrainCommands, op.Bound s := by
    unfold sendTrainCommands
    split <;> simp [Operation.Bound, Guard.Bound, Action.Bound]
  have hdrop : a.afterTransition.drop 4 = a.handleBaseStates.drop 4 ++ a.sendTrainCommands ++
      handleInit ++ handleInitState := rfl
  rw [hdrop]
  simp only [List.forall_mem_append]
  refine ⟨⟨⟨hbase, hcommands⟩, ?_⟩, ?_⟩
  · simp [handleInit, Operation.Bound, Guard.Bound, Action.Bound]
  · simp [handleInitState, Operation.Bound, Guard.Bound, Action.Bound]

theorem afterTransition_runs (hdetector : (s.bound currentBlockDetector).isSome)
    (hroute : Underway s.control.state → (s.bound routingBlockRequestGreen).isSome ∧
      (s.bound routingBlockRouteOut).isSome) :
    ∃ s', run control s a.afterTransition = some s' := by
  have hdrop := a.bound_afterTransition_drop hdetector
  have hsplit : a.afterTransition = a.afterTransition.take 4 ++ a.afterTransition.drop 4 :=
    (List.take_append_drop 4 _).symm
  by_cases hunderway : Underway s.control.state
  · obtain ⟨hgreen, hout⟩ := hroute hunderway
    refine run_of_bound fun op hop => ?_
    rw [hsplit] at hop
    rcases List.mem_append.mp hop with hop | hop
    · simp only [afterTransition, handleBaseStates, List.cons_append, List.nil_append,
        List.take_succ_cons, List.take_zero, List.mem_cons, List.not_mem_nil, or_false] at hop
      rcases hop with rfl | rfl | rfl | rfl <;>
        simp [Operation.Bound, Guard.Bound, Action.Bound, hgreen, hout]
    · exact hdrop op hop
  · have hother : ∀ n ∈ underway, s.control.state ≠ UInt8.ofNat n :=
      fun n hn h => hunderway ⟨n, hn, h⟩
    have hgreen := hother stRequestGreen (by decide)
    have hrequested := hother stGreenRequested (by decide)
    have htake : run control s (a.afterTransition.take 4) = some s := by
      refine run_skip fun op hop => ?_
      simp only [afterTransition, handleBaseStates, List.cons_append, List.nil_append,
        List.take_succ_cons, List.take_zero, List.mem_cons, List.not_mem_nil, or_false] at hop
      rcases hop with rfl | rfl | rfl | rfl
      · exact exec_other_state hgreen _ _
      · exact exec_other_state hrequested _ _
      · exact exec_other_state hrequested _ _
      · exact exec_other_state hrequested _ _
    obtain ⟨s', hs'⟩ := run_of_bound (m := control) hdrop
    exact ⟨s', by rw [hsplit]; exact run_append_eq_some.mpr ⟨s, htake, hs'⟩⟩

/-! ## A run -/

/-- The blocks that a call takes for its current one. -/
def stations : List String := a.body.filterMap Call.source?

/-- The train is at this location, and at no other. -/
def OnlyAt (p : String) (s : TrainState X) : Prop :=
  s.bits (.permaloc p) = true ∧ ∀ n ∈ a.locations, s.bits (.permaloc n) = true → n = p

/-- A transition leaves the location. -/
def IsSource (p : String) : Prop := ∃ t ∈ a.transitions, t.source.name = p

/-- The train has not moved in the run: what the calls behind it have bound. -/
structure Stays (p : String) (past : List (Call X)) (u : TrainState X) : Prop where
  train : a.OnlyAt p u
  underway : Underway u.control.state → a.IsSource p
  detector : (∃ c ∈ past, c.source? = some p) → (u.bound currentBlockDetector).isSome
  route : (∃ t, .transition t ∈ past ∧ t.source.name = p) →
    (u.bound routingBlockRequestGreen).isSome ∧ (u.bound routingBlockRouteOut).isSome

/-- The train has moved in the run. -/
structure Gone (u : TrainState X) : Prop where
  state : u.control.state = UInt8.ofNat stTransitionDone
  train : ∃ q ∈ a.stations, a.OnlyAt q u
  detector : (u.bound currentBlockDetector).isSome

/-- Between the calls of a run that began with the train at a location, behind some of them. -/
structure Mid (p : String) (past : List (Call X)) (u : TrainState X) : Prop where
  wellBound : WellBound kind u
  imports : ∀ t, .transition t ∈ past → (u.bound currentBlockRoutingloc).isSome ∧
    (a.importsDirection t = true → (u.bound currentDirection).isSome)
  train : a.Stays p past u ∨ a.Gone u

variable {a} {p : String} {past : List (Call X)}

omit [DecidableEq X] in
theorem OnlyAt.same (h : a.OnlyAt p s) (hsame : SamePermalocs s s') : a.OnlyAt p s' :=
  ⟨(hsame p).trans h.1, fun n hn hset => h.2 n hn ((hsame n).symm.trans hset)⟩

/-- A call that is no transition, and that binds the detector of its block. -/
theorem Mid.quiet (h : a.Mid p past u) {call : Call X} (hcall : ∀ t, call ≠ .transition t)
    {ops : List (TrainOp X)} (hquiet : QuietRun ops u s')
    (hdetector : ∀ n, call.source? = some n → u.bits (.permaloc n) = true →
      (s'.bound currentBlockDetector).isSome) : a.Mid p (past ++ [call]) s' := by
  have hext := extends_run hquiet.run
  have hpast : ∀ t, Call.transition t ∈ past ++ [call] → .transition t ∈ past := by
    intro t ht
    rcases List.mem_append.mp ht with ht | ht
    · exact ht
    · exact absurd (List.mem_singleton.mp ht).symm (hcall t)
  refine ⟨hquiet.wellBound, fun t ht => ?_, ?_⟩
  · obtain ⟨hrouting, hdirection⟩ := h.imports t (hpast t ht)
    exact ⟨hext _ hrouting, fun hd => hext _ (hdirection hd)⟩
  · rcases h.train with hstays | hgone
    · refine .inl ⟨hstays.train.same hquiet.permaloc, fun hs' => hstays.underway (hquiet.underway hs'),
        ?_, ?_⟩
      · rintro ⟨c, hc, hsource⟩
        rcases List.mem_append.mp hc with hc | hc
        · exact hext _ (hstays.detector ⟨c, hc, hsource⟩)
        · obtain rfl := List.mem_singleton.mp hc
          exact hdetector p hsource hstays.train.1
      · rintro ⟨t, ht, hsource⟩
        obtain ⟨hgreen, hout⟩ := hstays.route ⟨t, hpast t ht, hsource⟩
        exact ⟨hext _ hgreen, hext _ hout⟩
    · obtain ⟨q, hq, hat⟩ := hgone.train
      exact .inr ⟨hquiet.done hgone.state, ⟨q, hq, hat.same hquiet.permaloc⟩,
        hext _ hgone.detector⟩

omit [DecidableEq X] in
theorem mem_locations {t : Transition X} (ht : t ∈ a.transitions) :
    t.source.name ∈ a.locations ∧ t.dest.name ∈ a.locations := by
  obtain ⟨call, hcall, heq⟩ := List.mem_filterMap.mp ht
  cases call with
  | transition t' =>
    obtain rfl := Option.some.inj heq
    exact ⟨List.mem_flatMap.mpr ⟨_, hcall, by simp [Call.locations]⟩,
      List.mem_flatMap.mpr ⟨_, hcall, by simp [Call.locations]⟩⟩
  | _ => cases heq

omit [DecidableEq X] in
/-- The train has moved. -/
theorem OnlyAt.moved {t : Transition X} (h : a.OnlyAt t.source.name s)
    (hmove : ∀ n, s'.bits (.permaloc n) = if n = t.dest.name then true else
      if n = t.source.name then false else s.bits (.permaloc n)) : a.OnlyAt t.dest.name s' := by
  refine ⟨by rw [hmove, if_pos rfl], fun n hn hset => ?_⟩
  by_contra hne
  rw [hmove, if_neg hne] at hset
  split at hset
  · cases hset
  · next hother => exact hother (h.2 n hn hset)

theorem undecided_not_done (h : Undecided s) :
    s.control.state ≠ UInt8.ofNat stTransitionDone := by
  rcases h with h | h | h <;> rw [h] <;> decide

/-- What a transition does, in one word. -/
theorem Outcome.cases {t : Transition X} (h : Outcome a t s s') :
    (SamePermalocs s s' ∧ (s'.control.state = s.control.state ∨
      s'.control.state = UInt8.ofNat stWaiting ∨
      s.bits (.permaloc t.source.name) = true ∧ s'.control.state = UInt8.ofNat stReadyToGo) ∧
      (s.control.state = UInt8.ofNat stTransitionDone → s'.control.state = s.control.state)) ∨
    s.bits (.permaloc t.source.name) = true ∧
      s.control.state = UInt8.ofNat stRequestTransition ∧
      s'.control.state = UInt8.ofNat stTransitionDone ∧
      ∀ n, s'.bits (.permaloc n) = if n = t.dest.name then true else
        if n = t.source.name then false else s.bits (.permaloc n) := by
  cases h with
  | elsewhere hsource hstate hkeeping =>
    refine .inl ⟨hkeeping.permaloc, ?_, fun hdone => ?_⟩
    · rcases hstate with hsame | ⟨-, hwaiting⟩
      · exact .inl hsame
      · exact .inr (.inl hwaiting)
    · rcases hstate with hsame | ⟨hundecided, -⟩
      · exact hsame
      · exact absurd hdone (undecided_not_done hundecided)
  | waits hsource hundecided hstate hkeeping =>
    exact .inl ⟨hkeeping.permaloc, .inr (.inl hstate),
      fun hdone => absurd hdone (undecided_not_done hundecided)⟩
  | goes hsource hundecided hadmits hstate hkeeping =>
    exact .inl ⟨hkeeping.permaloc, .inr (.inr ⟨hsource, hstate⟩),
      fun hdone => absurd hdone (undecided_not_done hundecided)⟩
  | rests hsource hdecided hstate hkeeping =>
    exact .inl ⟨hkeeping.permaloc, .inl hstate, fun _ => hstate⟩
  | fails hstate htaken hstate' hkeeping =>
    refine .inl ⟨hkeeping.permaloc, .inr (.inl hstate'), fun hdone => ?_⟩
    rw [hstate] at hdone
    exact absurd hdone (by decide)
  | moves hstate htaken hstate' hpermaloc hhelper =>
    exact .inr ⟨(Bool.and_eq_true_iff.mp htaken).1, hstate, hstate', hpermaloc⟩

/-- A transition. -/
theorem Mid.transition (h : a.Mid p past u) {t : Transition X} (heager : t.eager = false)
    (ht : t ∈ a.transitions) (hdest : t.dest.name ∈ a.stations) : ∃ s',
    run control u (a.addBlockTransitionOnPermit t) = some s' ∧
      a.Mid p (past ++ [.transition t]) s' := by
  obtain ⟨s', hrun, houtcome, hleaves⟩ := a.transition_outcome t heager ht u
  have hext := extends_run hrun
  have hrouting : (s'.bound currentBlockRoutingloc).isSome := by rw [hleaves.routingloc]; rfl
  refine ⟨s', hrun, (a.transition_moves t h.wellBound hrun).1, fun t' ht' => ?_, ?_⟩
  · refine ⟨hrouting, fun hd => ?_⟩
    rcases List.mem_append.mp ht' with ht' | ht'
    · exact hext _ ((h.imports t' ht').2 hd)
    · cases List.mem_singleton.mp ht'
      rw [hleaves.direction hd]
      rfl
  · rcases h.train with hstays | hgone
    · have hsource : u.bits (.permaloc t.source.name) = true → t.source.name = p :=
        hstays.train.2 _ (mem_locations ht).1
      rcases houtcome.cases with ⟨hsame, hstate, -⟩ | ⟨hset, -, hstate, hmove⟩
      · refine .inl ⟨hstays.train.same hsame, fun hunderway => ?_, ?_, ?_⟩
        · rcases hstate with hstate | hstate | ⟨hset, hstate⟩
          · exact hstays.underway (hstate ▸ hunderway)
          · rw [hstate] at hunderway
            exact absurd hunderway (by decide)
          · exact ⟨t, ht, hsource hset⟩
        · rintro ⟨c, hc, hcsource⟩
          rcases List.mem_append.mp hc with hc | hc
          · exact hext _ (hstays.detector ⟨c, hc, hcsource⟩)
          · obtain rfl := List.mem_singleton.mp hc
            obtain rfl : t.source.name = p := Option.some.inj hcsource
            exact (hleaves.here hstays.train.1).1
        · rintro ⟨t', ht', ht'source⟩
          rcases List.mem_append.mp ht' with ht' | ht'
          · obtain ⟨hgreen, hout⟩ := hstays.route ⟨t', ht', ht'source⟩
            exact ⟨hext _ hgreen, hext _ hout⟩
          · cases List.mem_singleton.mp ht'
            exact (hleaves.here (ht'source ▸ hstays.train.1)).2
      · obtain rfl := hsource hset
        exact .inr ⟨hstate, ⟨_, hdest, hstays.train.moved hmove⟩, (hleaves.here hset).1⟩
    · rcases houtcome.cases with ⟨hsame, -, hdone⟩ | ⟨-, hstate, -, -⟩
      · obtain ⟨q, hq, hat⟩ := hgone.train
        exact .inr ⟨(hdone hgone.state).trans hgone.state, ⟨q, hq, hat.same hsame⟩,
          hext _ hgone.detector⟩
      · rw [hgone.state] at hstate
        exact absurd hstate (by decide)

/-- `SwitchTurnout` stands only behind a transition or another `SwitchTurnout`. -/
def turnoutsPlaced : Bool → List (Call X) → Bool
  | _, [] => true
  | behind, .switchTurnout _ _ :: rest => behind && turnoutsPlaced true rest
  | _, .transition _ :: rest => turnoutsPlaced true rest
  | _, _ :: rest => turnoutsPlaced false rest

omit [DecidableEq X] in
theorem place_cons {current : Option (Call X)} {call : Call X} {rest : List (Call X)}
    {calls : List (Placed X)} (hcall : ∀ magnet value, call ≠ .switchTurnout magnet value)
    (h : place (some call) rest = some calls) :
    place current (call :: rest) = some (⟨call, call⟩ :: calls) := by
  cases call with
  | switchTurnout magnet value => exact absurd rfl (hcall magnet value)
  | transition t => exact congrArg (Option.bind · fun calls => some (_ :: calls)) h
  | stopTrainAt dest => exact congrArg (Option.bind · fun calls => some (_ :: calls)) h
  | stopAndReverseAtStub inSignal => exact congrArg (Option.bind · fun calls => some (_ :: calls)) h

/-- The calls of a body, behind others: they are placed, and they run from every state between
them. -/
theorem run_calls (heager : ∀ t ∈ a.transitions, t.eager = false)
    (hdest : ∀ t ∈ a.transitions, t.dest.name ∈ a.stations) (behind : Bool)
    (current : Option (Call X)) (past : List (Call X)) {body : List (Call X)}
    (hbody : ∀ c ∈ body, c ∈ a.body)
    (hcurrent : behind = true → ∃ t ∈ a.transitions, current = some (.transition t) ∧
      .transition t ∈ past)
    (hplaced : turnoutsPlaced behind body = true) : ∃ calls, place current body = some calls ∧
      ∀ p u, a.Mid p past u → ∃ s', run control u (calls.flatMap a.render) = some s' ∧
        a.Mid p (past ++ body) s' := by
  induction body generalizing behind current past with
  | nil =>
    refine ⟨[], rfl, fun p u h => ⟨u, rfl, ?_⟩⟩
    rw [List.append_nil]
    exact h
  | cons call rest ih =>
    have hrest : ∀ c ∈ rest, c ∈ a.body := fun c hc => hbody c (List.mem_cons_of_mem call hc)
    -- One call, and the calls behind it.
    have hstep : ∀ {first : Placed X} {calls : List (Placed X)},
        (∀ p u, a.Mid p past u → ∃ u', run control u (a.render first) = some u' ∧
          a.Mid p (past ++ [call]) u') →
        (∀ p u, a.Mid p (past ++ [call]) u → ∃ s',
          run control u (calls.flatMap a.render) = some s' ∧
            a.Mid p (past ++ [call] ++ rest) s') →
        ∀ p u, a.Mid p past u → ∃ s', run control u ((first :: calls).flatMap a.render) = some s' ∧
          a.Mid p (past ++ call :: rest) s' := by
      intro first calls hfirst hcalls p u h
      obtain ⟨u', hu', hmid⟩ := hfirst p u h
      obtain ⟨s', hs', hmid'⟩ := hcalls p u' hmid
      refine ⟨s', ?_, ?_⟩
      · rw [List.flatMap_cons]
        exact run_append_eq_some.mpr ⟨u', hu', hs'⟩
      · rwa [List.append_assoc, List.singleton_append] at hmid'
    cases call with
    | transition t =>
      have ht : t ∈ a.transitions := List.mem_filterMap.mpr ⟨_, hbody _ List.mem_cons_self, rfl⟩
      obtain ⟨calls, hplace, hcalls⟩ := ih true (some (.transition t)) (past ++ [.transition t])
        hrest (fun _ => ⟨t, ht, rfl, by simp⟩) hplaced
      exact ⟨_, place_cons (by simp) hplace, hstep
        (fun p u h => h.transition (heager t ht) ht (hdest t ht)) hcalls⟩
    | stopTrainAt dest =>
      obtain ⟨calls, hplace, hcalls⟩ := ih false (some (.stopTrainAt dest))
        (past ++ [.stopTrainAt dest]) hrest nofun hplaced
      refine ⟨_, place_cons (by simp) hplace, hstep (fun p u h => ?_) hcalls⟩
      obtain ⟨u', hquiet, hdetector⟩ := stopTrainAt_quiet dest h.wellBound
      exact ⟨u', hquiet.run, h.quiet (by simp) hquiet (by rintro n ⟨⟩; exact hdetector)⟩
    | stopAndReverseAtStub inSignal =>
      obtain ⟨calls, hplace, hcalls⟩ := ih false (some (.stopAndReverseAtStub inSignal))
        (past ++ [.stopAndReverseAtStub inSignal]) hrest nofun hplaced
      refine ⟨_, place_cons (by simp) hplace, hstep (fun p u h => ?_) hcalls⟩
      obtain ⟨u', hquiet, hdetector⟩ := a.stopAndReverseAtStub_quiet inSignal h.wellBound
      exact ⟨u', hquiet.run, h.quiet (by simp) hquiet (by rintro n ⟨⟩; exact hdetector)⟩
    | switchTurnout magnet desiredState =>
      obtain ⟨hbehind, hplaced⟩ := Bool.and_eq_true_iff.mp hplaced
      obtain ⟨t, ht, rfl, hpast⟩ := hcurrent hbehind
      obtain ⟨calls, hplace, hcalls⟩ := ih true (some (.transition t))
        (past ++ [.switchTurnout magnet desiredState]) hrest
        (fun _ => ⟨t, ht, rfl, List.mem_append_left _ hpast⟩) hplaced
      refine ⟨⟨.transition t, .switchTurnout magnet desiredState⟩ :: calls,
        congrArg (Option.bind · fun calls => some (_ :: calls)) hplace,
        hstep (fun p u h => ?_) hcalls⟩
      obtain ⟨hrouting, hdirection⟩ := h.imports t hpast
      obtain ⟨u', hquiet⟩ := a.switchTurnout_quiet t.source.name magnet desiredState h.wellBound
        hrouting (fun hd => hdirection (a.respectDirection_eq t ht ▸ hd))
      exact ⟨u', hquiet.run, h.quiet (by simp) hquiet (by rintro n ⟨⟩)⟩

/-! ## Histories -/

/-- What holds between two runs. -/
structure Between (a : Schedule X) (p : String) (s : TrainState X) : Prop where
  station : p ∈ a.stations
  train : a.OnlyAt p s
  underway : Underway s.control.state → a.IsSource p

/-- A run from such a state ends, in such a state. -/
theorem Between.runOnce {calls : List (Placed X)} (h : a.Between p s)
    (hcalls : ∀ p u, a.Mid p [] u → ∃ s', run control u (calls.flatMap a.render) = some s' ∧
      a.Mid p a.body s') : ∃ s' q, a.runOnce calls s = some s' ∧ a.Between q s' := by
  have hstart : a.Mid p [] { s with bound := fun _ => none } :=
    ⟨fun _ _ h => (by cases h), nofun, .inl ⟨h.train, h.underway, nofun, nofun⟩⟩
  obtain ⟨u, hu, hmid⟩ := hcalls p _ hstart
  obtain ⟨q, hq, htrain, hunderway, hdetector, hroute⟩ : ∃ q ∈ a.stations, a.OnlyAt q u ∧
      (Underway u.control.state → a.IsSource q) ∧ (u.bound currentBlockDetector).isSome ∧
      (Underway u.control.state → (u.bound routingBlockRequestGreen).isSome ∧
        (u.bound routingBlockRouteOut).isSome) := by
    rcases hmid.train with hstays | hgone
    · refine ⟨p, h.station, hstays.train, hstays.underway,
        hstays.detector (List.mem_filterMap.mp h.station), fun hunderway => ?_⟩
      obtain ⟨t, ht, hsource⟩ := hstays.underway hunderway
      obtain ⟨c, hc, heq⟩ := List.mem_filterMap.mp ht
      refine hstays.route ⟨t, ?_, hsource⟩
      cases c with
      | transition t' => exact Option.some.inj heq ▸ hc
      | _ => cases heq
    · obtain ⟨q, hq, hat⟩ := hgone.train
      have hnot : ¬ Underway u.control.state := by
        rw [hgone.state]
        decide
      exact ⟨q, hq, hat, fun h => absurd h hnot, hgone.detector, fun h => absurd h hnot⟩
  obtain ⟨s', hs'⟩ := a.afterTransition_runs hdetector hroute
  refine ⟨s', q, run_append_eq_some.mpr ⟨u, hu, hs'⟩, hq,
    htrain.same (a.mild_afterTransition.keeps hmid.wellBound hs').permaloc, fun hs'underway => ?_⟩
  have hedges : Edges Onward a.afterTransition := a.edges_afterTransition (by decide)
  have honward := hedges.run (I := fun state => ¬ Underway state)
    (fun m n hmay hm hn => hm (hmay hn)) hs'
  exact hunderway (by_contra fun hu => honward hu hs'underway)

omit [DecidableEq X] in
theorem Between.apply (h : a.Between p s) (c : Change X) : a.Between p (c.apply s) :=
  ⟨h.station, ⟨(bits_apply c s rfl).trans h.train.1,
    fun n hn hset => h.train.2 n hn ((bits_apply c s rfl).symm.trans hset)⟩, h.underway⟩

/-- From the initial state, with the train at a block that a call takes for its current one, every
history of changes and runs goes to its end: no run uses a local variable that is not bound. -/
theorem never_unbound (heager : ∀ t ∈ a.transitions, t.eager = false)
    (hdest : ∀ t ∈ a.transitions, t.dest.name ∈ a.stations)
    (hplaced : turnoutsPlaced false a.body = true)
    (hinit : s.control.state = UInt8.ofNat stInit) (hat : ∃ p ∈ a.stations, a.OnlyAt p s) :
    ∃ calls, place none a.body = some calls ∧
      ∀ changes, ∃ s', Trace.run (a.step calls) s changes = some s' := by
  obtain ⟨p, hp, htrain⟩ := hat
  obtain ⟨calls, hplace, hcalls⟩ := run_calls heager hdest false none [] (fun _ hc => hc) nofun
    hplaced
  refine ⟨calls, hplace, fun changes => ?_⟩
  have hstart : a.Between p s := by
    refine ⟨hp, htrain, fun hunderway => ?_⟩
    rw [hinit] at hunderway
    exact absurd hunderway (by decide)
  clear hinit htrain hp
  induction changes generalizing s p with
  | nil => exact ⟨s, rfl⟩
  | cons c rest ih =>
    obtain ⟨u, q, hu, hbetween⟩ := (hstart.apply c).runOnce hcalls
    obtain ⟨s', hs'⟩ := ih q hbetween
    exact ⟨s', by rw [Trace.run_cons, step, hu, Option.bind_some, hs']⟩

/-- From the first block over a turnout to the second. -/
def overTurnout : Schedule Nat where
  body := [.transition (addDirectBlockTransition blockA blockB [(40, true)] false),
    .switchTurnout ⟨41, 42, 43⟩ true, .stopTrainAt blockB]
  trainNodeId := 0x060100001384
  speedVar := none
  resetRoutes := some 44

/-- The train at the first block, in the initial state. -/
def trainAtA : TrainState Nat where
  control := ⟨UInt8.ofNat stInit, 0⟩
  bits v := v == .permaloc "A"
  bound _ := none

theorem overTurnout_never_unbound : ∃ calls, place none overTurnout.body = some calls ∧
    ∀ changes, ∃ s', Trace.run (overTurnout.step calls) trainAtA changes = some s' := by
  refine never_unbound (a := overTurnout) ?_ ?_ ?_ rfl ⟨"A", ?_, ?_, ?_⟩ <;> decide

end Schedule

end OpenmrnCue.TrainSchedule
