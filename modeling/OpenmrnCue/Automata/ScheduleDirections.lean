import Mathlib.Data.List.Pairwise
import OpenmrnCue.Automata.ScheduleBinding

/-! The direction of a train.  The runs of a schedule are taken apart into their calls, with a record
of the transition that was last decided to be taken.  As long as no transition goes ahead while the
direction bit of another one from its block is still set from an attempt that failed, the direction
bits tell that transition from all others: turnouts are switched and the train is moved only for
it. -/

namespace OpenmrnCue.TrainSchedule

open LateBinding Local
open Automata (stInit stBase)

variable {X : Type} [DecidableEq X] {s s' u : TrainState X}

/-! ## Runs by their calls -/

/-- A schedule between its steps: the calls that a run still has before it, if one is under way, and
the transition that was last decided to be taken. -/
structure Progress (X : Type) where
  train : TrainState X
  pending : Option (List (Schedule.Placed X))
  chosen : Option (Transition X)

inductive Event (X : Type) where
  | change (c : Change X)
  | call
  | finish

/-- The transition that has led to `stReadyToGo`, if a call was one and did. -/
def decided (p : Schedule.Placed X) (s s' : TrainState X) : Option (Transition X) :=
  if s.control.state ≠ UInt8.ofNat stReadyToGo ∧ s'.control.state = UInt8.ofNat stReadyToGo then
    p.call.transition?
  else none

/-- A step: the environment changes bits and a run begins, a call of the run, or its end. -/
def Schedule.advance (a : Schedule X) (calls : List (Schedule.Placed X)) (k : Progress X) :
    Event X → Option (Progress X)
  | .change c =>
    match k.pending with
    | none => some { k with train := { c.apply k.train with bound := fun _ => none },
                            pending := some calls }
    | some _ => none
  | .call =>
    match k.pending with
    | some (p :: rest) => (run control k.train (a.render p)).map fun u =>
        ⟨u, some rest, (decided p k.train u).or k.chosen⟩
    | _ => none
  | .finish =>
    match k.pending with
    | some [] => (run control k.train a.afterTransition).map fun u => ⟨u, none, k.chosen⟩
    | _ => none

namespace Schedule

variable {a : Schedule X} {calls : List (Placed X)} {k k' : Progress X}

theorem advance_call {p : Placed X} {rest : List (Placed X)} (hpending : k.pending = some (p :: rest))
    (h : a.advance calls k .call = some k') : ∃ u, run control k.train (a.render p) = some u ∧
      k' = ⟨u, some rest, (decided p k.train u).or k.chosen⟩ := by
  rw [advance, hpending] at h
  obtain ⟨u, hu, rfl⟩ := Option.map_eq_some_iff.mp h
  exact ⟨u, hu, rfl⟩

/-- The steps of one run. -/
theorem run_advance (calls : List (Placed X)) {rest : List (Placed X)} (hpending : k.pending = some rest)
    (hrun : run control k.train (rest.flatMap a.render ++ a.afterTransition) = some s') :
    ∃ k', Trace.run (a.advance calls) k (rest.map (fun _ => .call) ++ [.finish]) = some k' ∧
      k'.train = s' ∧ k'.pending = none := by
  induction rest generalizing k with
  | nil =>
    refine ⟨⟨s', none, k.chosen⟩, ?_, rfl, rfl⟩
    have hrun' : run control k.train a.afterTransition = some s' := hrun
    rw [List.map_nil, List.nil_append, Trace.run_cons, advance, hpending]
    simp [hrun']
  | cons p rest ih =>
    rw [List.flatMap_cons, List.append_assoc] at hrun
    obtain ⟨u, hu, hrest⟩ := run_append_eq_some.mp hrun
    obtain ⟨k', hk', htrain, hnone⟩ := ih (k := ⟨u, some rest, (decided p k.train u).or k.chosen⟩)
      rfl hrest
    refine ⟨k', ?_, htrain, hnone⟩
    rw [List.map_cons, List.cons_append, Trace.run_cons, advance, hpending]
    simp only [hu, Option.map_some, Option.bind_some]
    exact hk'

/-- A change and a run behind it are a change, the calls of the run and its end. -/
theorem step_advance {c : Change X} (hpending : k.pending = none)
    (hstep : a.step calls k.train c = some s') :
    ∃ k', Trace.run (a.advance calls) k (.change c :: calls.map (fun _ => .call) ++ [.finish]) =
      some k' ∧ k'.train = s' ∧ k'.pending = none := by
  obtain ⟨k', hk', hk⟩ := run_advance (a := a) calls (k := ⟨_, some calls, k.chosen⟩) rfl hstep
  refine ⟨k', ?_, hk⟩
  rw [List.cons_append, Trace.run_cons, advance, hpending]
  exact hk'

/-! ## The bits of the schedule -/

/-- An action does not write the bits of locations and directions. -/
def SparesOwn (act : Act X) : Prop :=
  act.BindsBy kind ∧ ∀ v : Var X, v.isOwn = true → act.Spares kind v

omit [DecidableEq X] in
@[simp] theorem sparesOwn_control (c : Command) : SparesOwn (.control c : Act X) :=
  ⟨trivial, fun _ _ => trivial⟩

omit [DecidableEq X] in
@[simp] theorem sparesOwn_use (r : Reg X) : SparesOwn (.use r : Act X) :=
  ⟨trivial, fun _ _ => trivial⟩

omit [DecidableEq X] in
@[simp] theorem sparesOwn_bind {l : Local} {v : Var X} : SparesOwn (.bind l v) ↔ kind l v :=
  ⟨fun h => h.1, fun h => ⟨h, fun _ _ => trivial⟩⟩

omit [DecidableEq X] in
theorem sparesOwn_write_var {w : Var X} (hw : w.isOwn = false) (value : Bool) :
    SparesOwn (.write (.var w) value) := by
  refine ⟨trivial, ?_⟩
  rintro v hv rfl
  rw [hw] at hv
  cases hv

omit [DecidableEq X] in
theorem sparesOwn_write_slot {l : Local} (hl : ∀ v : Var X, kind l v → ∃ x, v = .layout x)
    (value : Bool) : SparesOwn (.write (.slot l) value : Act X) := by
  refine ⟨trivial, fun v hv hkind => ?_⟩
  obtain ⟨x, rfl⟩ := hl v hkind
  cases hv

/-- Operations that do not write the bits of locations and directions keep them. -/
theorem own_run {ops : List (TrainOp X)} (h : WellBound kind s)
    (hops : ∀ op ∈ ops, ∀ act ∈ op.actions, SparesOwn act)
    (hrun : run control s ops = some s') {v : Var X} (hv : v.isOwn = true) :
    s'.bits v = s.bits v :=
  bits_run h (fun op hop act hact => ⟨(hops op hop act hact).1, (hops op hop act hact).2 v hv⟩) hrun

variable (a)

omit [DecidableEq X] in
theorem own_handleBaseStates : ∀ op ∈ a.handleBaseStates, ∀ act ∈ op.actions, SparesOwn act := by
  have hgreen := sparesOwn_write_slot (X := X) (l := routingBlockRequestGreen) (fun _ h => h)
  have hgo := sparesOwn_write_var (X := X) (w := .reqGo) rfl
  have hstop := sparesOwn_write_var (X := X) (w := .reqStop) rfl
  simp [handleBaseStates, hgreen, hgo, hstop, or_imp, forall_and]

omit [DecidableEq X] in
theorem own_sendTrainCommands : ∀ op ∈ a.sendTrainCommands, ∀ act ∈ op.actions, SparesOwn act := by
  have hgo := sparesOwn_write_var (X := X) (w := .reqGo) rfl
  have hstop := sparesOwn_write_var (X := X) (w := .reqStop) rfl
  have hreversed := sparesOwn_write_var (X := X) (w := .lastSetReversed) rfl
  have hmoving := sparesOwn_write_var (X := X) (w := .isMoving) rfl
  unfold sendTrainCommands
  split <;> simp [hgo, hstop, hreversed, hmoving]

omit [DecidableEq X] in
theorem own_afterTransition : ∀ op ∈ a.afterTransition, ∀ act ∈ op.actions, SparesOwn act := by
  have hreversed := sparesOwn_write_var (X := X) (w := .lastSetReversed) rfl
  intro op hop
  simp only [afterTransition, List.mem_append] at hop
  rcases hop with ((hop | hop) | hop) | hop
  · exact a.own_handleBaseStates op hop
  · exact a.own_sendTrainCommands op hop
  · obtain rfl := List.mem_singleton.mp hop
    simp [hreversed]
  · obtain rfl := List.mem_singleton.mp hop
    simp

omit [DecidableEq X] in
theorem own_switchTurnout (location : String) (magnet : Magnet X) (desiredState : Bool) :
    ∀ op ∈ a.switchTurnout location magnet desiredState, ∀ act ∈ op.actions, SparesOwn act := by
  have hcommand := sparesOwn_write_slot (X := X) (l := magnetCommand) (fun _ h => h)
  simp [switchTurnout, hcommand, kind]

/-- What `SwitchTurnout` does behind a transition: nothing, unless the train is at its source in the
state for turnouts, in its direction. -/
theorem switchTurnout_acts (t : Transition X) (ht : t ∈ a.transitions) (magnet : Magnet X)
    (desiredState : Bool)
    (hrouting : s.bound currentBlockRoutingloc = some (.routingloc t.source.name))
    (hdirection : a.importsDirection t = true → s.bound currentDirection = some (.helper t.key))
    (hrun : run control s (a.switchTurnout t.source.name magnet desiredState) = some s') :
    s' = s ∨ s.control.state = UInt8.ofNat stTurnout ∧
      s.bits (.routingloc t.source.name) = true ∧
      (a.importsDirection t = true → s.bits (.helper t.key) = true) := by
  have hguards : testAll control s
      (ifState stTurnout :: a.addCurrentOutgoingConditions t.source.name) =
        some (s.control.state == UInt8.ofNat stTurnout && (s.bits (.routingloc t.source.name) &&
          (!a.importsDirection t || s.bits (.helper t.key)))) := by
    rw [addCurrentOutgoingConditions, a.respectDirection_eq t ht]
    cases hd : a.importsDirection t with
    | false =>
      refine (testAll_cons_control (Query.ifState stTurnout) <|
        testAll_cons_bit (r := .slot currentBlockRoutingloc) hrouting true testAll_nil).trans ?_
      simp [control]
    | true =>
      refine (testAll_cons_control (Query.ifState stTurnout) <|
        testAll_cons_bit (r := .slot currentBlockRoutingloc) hrouting true <|
        testAll_cons_bit (r := .slot currentDirection) (hdirection hd) true testAll_nil).trans ?_
      simp [control]
  cases hholds : s.control.state == UInt8.ofNat stTurnout &&
      (s.bits (.routingloc t.source.name) &&
        (!a.importsDirection t || s.bits (.helper t.key))) with
  | false =>
    rw [hholds] at hguards
    refine .inl (Option.some.inj (hrun.symm.trans (run_skip fun op hop => exec_skip ?_)))
    simp only [switchTurnout, List.mem_cons, List.not_mem_nil, or_false] at hop
    rcases hop with rfl | rfl | rfl
    · exact hguards
    · rw [testAll_append, hguards]
      rfl
    · rw [testAll_append, hguards]
      rfl
  | true =>
    simp only [Bool.and_eq_true, Bool.or_eq_true, Bool.not_eq_true', beq_iff_eq] at hholds
    obtain ⟨hstate, hset, hkey⟩ := hholds
    exact .inr ⟨hstate, hset, fun hd => hkey.resolve_left (by simp [hd])⟩

/-! ## The chosen transition -/

/-- Transitions that share neither a client nor both blocks. -/
def Apart (t t' : Transition X) : Prop :=
  ¬ (t.source.name = t'.source.name ∧ t.dest.name = t'.dest.name) ∧
    ∀ c c', t.client = some c → t'.client = some c' → c.request ≠ c'.request

omit [DecidableEq X] in
instance : Std.Symm (Apart (X := X)) where
  symm _ _ h := ⟨fun hsame => h.1 ⟨hsame.1.symm, hsame.2.symm⟩,
    fun c c' hc hc' heq => h.2 c' c hc' hc heq.symm⟩

omit [DecidableEq X] in
theorem Apart.key_ne {t t' : Transition X} (h : Apart t t')
    (hsource : t.source.name = t'.source.name) : t.key ≠ t'.key := by
  intro hkey
  rw [Transition.key, Transition.key] at hkey
  cases hc : t.client with
  | none =>
    cases hc' : t'.client with
    | none =>
      rw [hc, hc', hsource] at hkey
      have hname := HelperKey.named.inj hkey
      exact h.1 ⟨hsource, (String.append_right_inj _).mp hname⟩
    | some c' =>
      rw [hc, hc'] at hkey
      cases hkey
  | some c =>
    cases hc' : t'.client with
    | none =>
      rw [hc, hc'] at hkey
      cases hkey
    | some c' =>
      rw [hc, hc'] at hkey
      exact h.2 c c' hc hc' (HelperKey.request.inj hkey)

variable {a}

/-- Of one block, the transitions are told apart by their keys. -/
theorem eq_of_key (hapart : a.transitions.Pairwise Apart) {t t' : Transition X}
    (ht : t ∈ a.transitions) (ht' : t' ∈ a.transitions) (hsource : t'.source.name = t.source.name)
    (hkey : a.importsDirection t = true → t'.key = t.key) : t' = t := by
  cases himports : a.importsDirection t with
  | false => exact a.eq_of_not_importsDirection ht ht' hsource himports
  | true =>
    by_contra hne
    exact (hapart.forall ht' ht hne).key_ne hsource (hkey himports)

/-- The states of a train that has been told its direction. -/
def committed : List Nat :=
  [stReadyToGo, stTurnout, stTurnoutFailed, stRequestGreen, stGreenRequested, stGreenWait,
    stRequestTransition]

/-- The state is one of these. -/
def IsOneOf (states : List Nat) (state : UInt8) : Prop := ∃ n ∈ states, state = UInt8.ofNat n

instance (states : List Nat) (state : UInt8) : Decidable (IsOneOf states state) :=
  inferInstanceAs (Decidable (∃ n ∈ states, state = UInt8.ofNat n))

/-- In an attempt, the train has been told its direction, and the attempt has not ended yet. -/
def Attempting (state : UInt8) : Prop := IsOneOf (stGreenFailed :: committed) state

instance (state : UInt8) : Decidable (Attempting state) :=
  inferInstanceAs (Decidable (IsOneOf _ state))

variable (a)

/-- Of the direction bits, the one of a transition is set, if it has one, and no other. -/
def Towards (t : Transition X) (s : TrainState X) : Prop :=
  ∀ t' ∈ a.transitions, s.bits (.helper t'.key) = true ↔
    a.importsDirection t = true ∧ t'.key = t.key

/-- A direction bit that is set belongs to a transition from the block. -/
def Stale (p : String) (s : TrainState X) : Prop :=
  ∀ t' ∈ a.transitions, s.bits (.helper t'.key) = true →
    ∃ t ∈ a.transitions, t.source.name = p ∧ a.importsDirection t = true ∧ t'.key = t.key

/-- The direction bits, with the train at a block. -/
def Directions (p : String) (chosen : Option (Transition X)) (s : TrainState X) : Prop :=
  if Attempting s.control.state then
    ∃ t ∈ a.transitions, chosen = some t ∧ t.source.name = p ∧ a.Towards t s
  else a.Stale p s

/-- What a transition has left for the `SwitchTurnout` calls behind it. -/
structure Behind (t : Transition X) (s : TrainState X) : Prop where
  routing : s.bound currentBlockRoutingloc = some (.routingloc t.source.name)
  direction : a.importsDirection t = true → s.bound currentDirection = some (.helper t.key)
  copied : s.control.state ≠ UInt8.ofNat stTransitionDone →
    s.bits (.routingloc t.source.name) = s.bits (.permaloc t.source.name)

/-- The calls that are still to come. -/
def Coming (k : Progress X) : Prop := ∀ rest, k.pending = some rest →
  ∃ current body, place current body = some rest ∧ (∀ c ∈ body, c ∈ a.body) ∧
    ∀ c, current = some c → ∃ t ∈ a.transitions, c = .transition t ∧ a.Behind t k.train

/-- The invariant between the steps. -/
structure Inv (p : String) (k : Progress X) : Prop where
  location : p ∈ a.locations
  train : a.OnlyAt p k.train
  wellBound : k.pending ≠ none → WellBound kind k.train
  directions : a.Directions p k.chosen k.train
  coming : a.Coming k

variable {a} {p : String} {chosen : Option (Transition X)}

omit [DecidableEq X] in
/-- What keeps the direction bits, the location of the train and the attempt. -/
theorem Directions.same (h : a.Directions p chosen s)
    (hbits : ∀ key, s'.bits (.helper key) = s.bits (.helper key))
    (hstate : Attempting s'.control.state ↔ Attempting s.control.state) :
    a.Directions p chosen s' := by
  unfold Directions Towards Stale at *
  simp only [hbits, hstate]
  exact h

omit [DecidableEq X] in
/-- Of an attempt that has ended, the direction bit may be left. -/
theorem Directions.stale (h : a.Directions p chosen s) : a.Stale p s := by
  unfold Directions at h
  split at h
  · obtain ⟨t, ht, -, hsource, htowards⟩ := h
    intro t' ht' hset
    obtain ⟨himports, hkey⟩ := (htowards t' ht').mp hset
    exact ⟨t, ht, hsource, himports, hkey⟩
  · exact h

omit [DecidableEq X] in
theorem directions_of_stale (h : a.Stale p s) (hstate : ¬ Attempting s.control.state) :
    a.Directions p chosen s := by
  rw [Directions, if_neg hstate]
  exact h

omit [DecidableEq X] in
/-- Operations behind the calls and turnouts end attempts only. -/
theorem Directions.mono (h : a.Directions p chosen s)
    (hbits : ∀ key, s'.bits (.helper key) = s.bits (.helper key))
    (hstate : Attempting s'.control.state → Attempting s.control.state) :
    a.Directions p chosen s' := by
  by_cases hs : Attempting s.control.state
  · by_cases hs' : Attempting s'.control.state
    · exact h.same hbits ⟨hstate, fun _ => hs'⟩
    · refine directions_of_stale ?_ hs'
      intro t' ht' hset
      exact h.stale t' ht' ((hbits _).symm.trans hset)
  · exact h.same hbits ⟨hstate, fun hs' => absurd hs' hs⟩

/-! ## Steps -/

theorem helper_setDirection_eq (t : Transition X) (s : TrainState X) (value : Bool)
    (key : HelperKey X) : (a.setDirection t s value).bits (.helper key) =
      if a.importsDirection t = true ∧ key = t.key then value else s.bits (.helper key) := by
  unfold setDirection
  cases a.importsDirection t with
  | false => simp
  | true => simp [bits_setBit]

/-- No direction bit of another transition from the block is set. -/
def Unrivaled (a : Schedule X) (t : Transition X) (s : TrainState X) : Prop :=
  ∀ t' ∈ a.transitions, t'.source.name = t.source.name →
    s.bits (.helper t'.key) = true → t' = t

omit [DecidableEq X] in
theorem decided_of_same {q : Placed X} (h : s'.control.state = s.control.state) :
    decided q s s' = none := if_neg fun hboth => hboth.1 (h.symm.trans hboth.2)

omit [DecidableEq X] in
theorem decided_of_state {q : Placed X} {n : Nat} (h : s'.control.state = UInt8.ofNat n)
    (hn : UInt8.ofNat n ≠ UInt8.ofNat stReadyToGo) : decided q s s' = none :=
  if_neg fun hboth => hn (h.symm.trans hboth.2)

/-- The transition that goes ahead without a rival is the one that the bits tell. -/
theorem Stale.towards {t : Transition X} (h : a.Stale t.source.name s) (ht : t ∈ a.transitions)
    (hunrivaled : a.Unrivaled t s)
    (hbits : ∀ key, s'.bits (.helper key) = (a.setDirection t s true).bits (.helper key)) :
    a.Towards t s' := by
  intro t' ht'
  rw [hbits, helper_setDirection_eq]
  split
  · next hboth => exact ⟨fun _ => hboth, fun _ => rfl⟩
  · next hother =>
    refine ⟨fun hset => absurd ?_ hother, fun hboth => absurd hboth hother⟩
    obtain ⟨t'', ht'', hsource, himports, hkey⟩ := h t' ht' hset
    obtain rfl := hunrivaled t'' ht'' hsource (hkey ▸ hset)
    exact ⟨himports, hkey⟩

/-- The transition that moves the train is the one that the bits tell. -/
theorem Directions.eq_of_taken (hapart : a.transitions.Pairwise Apart) {t : Transition X}
    (h : a.Directions t.source.name chosen s) (ht : t ∈ a.transitions)
    (hstate : Attempting s.control.state)
    (hset : a.importsDirection t = true → s.bits (.helper t.key) = true) :
    chosen = some t ∧ a.Towards t s := by
  rw [Directions, if_pos hstate] at h
  obtain ⟨t', ht', rfl, hsource, htowards⟩ := h
  obtain rfl : t' = t := eq_of_key hapart ht ht' hsource
    fun himports => ((htowards t ht).mp (hset himports)).2.symm
  exact ⟨rfl, htowards⟩

/-- A move of the train from one location to another. -/
def Move (t : Transition X) (s s' : TrainState X) : Prop :=
  s.bits (.permaloc t.source.name) = true ∧ ∀ n, s'.bits (.permaloc n) =
    if n = t.dest.name then true else
      if n = t.source.name then false else s.bits (.permaloc n)

/-- A transition, without a rival if it goes ahead. -/
theorem Directions.transition (hapart : a.transitions.Pairwise Apart) {q : Placed X}
    {t : Transition X} (hq : q.call = .transition t) (h : a.Directions p chosen s)
    (hp : p ∈ a.locations) (hat : a.OnlyAt p s) (ht : t ∈ a.transitions)
    (houtcome : Outcome a t s s')
    (hunrivaled : Undecided s → s.bits (.permaloc t.source.name) = true → t.admits s = true →
      a.Unrivaled t s) :
    ∃ p' ∈ a.locations, a.OnlyAt p' s' ∧ a.Directions p' ((decided q s s').or chosen) s' ∧
      (SamePermalocs s s' ∨ chosen = some t ∧ Move t s s') := by
  have hnotAttempting : ∀ u : TrainState X, Undecided u → ¬ Attempting u.control.state := by
    rintro u (hu | hu | hu) <;> rw [hu] <;> decide
  have hwaiting : ¬ Attempting (UInt8.ofNat stWaiting) ∧
      UInt8.ofNat stWaiting ≠ UInt8.ofNat stReadyToGo := by decide
  cases houtcome with
  | elsewhere hsource hstate hkeeping =>
    refine ⟨p, hp, hat.same hkeeping.permaloc, ?_, .inl hkeeping.permaloc⟩
    rcases hstate with hsame | ⟨hundecided, hstate⟩
    · rw [decided_of_same hsame]
      exact h.mono hkeeping.helper (by rw [hsame]; exact id)
    · rw [decided_of_state hstate hwaiting.2]
      exact h.mono hkeeping.helper (by rw [hstate]; exact fun hw => absurd hw hwaiting.1)
  | waits hsource hundecided hstate hkeeping =>
    refine ⟨p, hp, hat.same hkeeping.permaloc, directions_of_stale ?_ (hstate ▸ hwaiting.1),
      .inl hkeeping.permaloc⟩
    intro t' ht' hset
    have hhelper := hkeeping.helper t'.key
    simp only [Option.map_some, Option.getD_some, helper_setDirection_eq, hset] at hhelper
    split at hhelper
    · cases hhelper
    · exact h.stale t' ht' hhelper.symm
  | goes hsource hundecided hadmits hstate hkeeping =>
    obtain rfl := hat.2 _ (mem_locations ht).1 hsource
    have hdecided : decided q s s' = some t := by
      refine (if_pos ⟨fun hready => ?_, hstate⟩).trans (by rw [hq]; rfl)
      exact hnotAttempting s hundecided (by rw [hready]; decide)
    refine ⟨_, hp, hat.same hkeeping.permaloc, ?_, .inl hkeeping.permaloc⟩
    rw [Directions, if_pos (by rw [hstate]; decide), hdecided]
    exact ⟨t, ht, rfl, rfl, h.stale.towards ht (hunrivaled hundecided hsource hadmits)
      hkeeping.helper⟩
  | rests hsource hdecided hstate hkeeping =>
    refine ⟨p, hp, hat.same hkeeping.permaloc, ?_, .inl hkeeping.permaloc⟩
    rw [decided_of_same hstate]
    exact h.mono hkeeping.helper (by rw [hstate]; exact id)
  | fails hstate htaken hstate' hkeeping =>
    refine ⟨p, hp, hat.same hkeeping.permaloc, ?_, .inl hkeeping.permaloc⟩
    rw [decided_of_state hstate' hwaiting.2]
    exact h.mono hkeeping.helper (by rw [hstate']; exact fun hw => absurd hw hwaiting.1)
  | moves hstate htaken hstate' hpermaloc hhelper =>
    obtain ⟨hsource, hset⟩ := Bool.and_eq_true_iff.mp htaken
    obtain rfl := hat.2 _ (mem_locations ht).1 hsource
    obtain ⟨hchosen, htowards⟩ := h.eq_of_taken hapart ht (by rw [hstate]; decide)
      fun himports => by simpa [himports] using hset
    refine ⟨_, (mem_locations ht).2, hat.moved hpermaloc, directions_of_stale ?_ (by rw [hstate']; decide),
      .inr ⟨hchosen, hsource, hpermaloc⟩⟩
    -- The bit of the transition is cleared, and there was no other.
    intro t' ht' hset'
    rw [hhelper, helper_setDirection_eq] at hset'
    split at hset'
    · cases hset'
    · next hother => exact absurd ((htowards t' ht').mp hset') hother

omit [DecidableEq X] in
/-- The first of the calls that are placed, and the calls behind it. -/
theorem place_eq_cons {current : Option (Call X)} {body : List (Call X)} {q : Placed X}
    {rest : List (Placed X)} (h : place current body = some (q :: rest)) :
    ∃ body', body = q.call :: body' ∧ place (some q.current) body' = some rest ∧
      ((∀ magnet value, q.call ≠ .switchTurnout magnet value) ∧ q.current = q.call ∨
        (∃ magnet value, q.call = .switchTurnout magnet value) ∧ current = some q.current) := by
  cases body with
  | nil => cases h
  | cons call body =>
    have hcons : ∀ current', ((place (some current') body).bind fun calls =>
        some ((⟨current', call⟩ : Placed X) :: calls)) = some (q :: rest) →
        ((∀ magnet value, call ≠ .switchTurnout magnet value) ∧ current' = call ∨
          (∃ magnet value, call = .switchTurnout magnet value) ∧ current = some current') →
        ∃ body', call :: body = q.call :: body' ∧ place (some q.current) body' = some rest ∧
          ((∀ magnet value, q.call ≠ .switchTurnout magnet value) ∧ q.current = q.call ∨
            (∃ magnet value, q.call = .switchTurnout magnet value) ∧
              current = some q.current) := by
      intro current' hbind hcurrent
      obtain ⟨others, hothers, heq⟩ := Option.bind_eq_some_iff.mp hbind
      cases heq
      exact ⟨body, rfl, hothers, hcurrent⟩
    cases call with
    | switchTurnout magnet desiredState =>
      obtain ⟨current', rfl, hbind⟩ := Option.bind_eq_some_iff.mp h
      exact hcons current' hbind (.inr ⟨⟨_, _, rfl⟩, rfl⟩)
    | transition t => exact hcons (.transition t) h (.inl ⟨by simp, rfl⟩)
    | stopTrainAt dest => exact hcons (.stopTrainAt dest) h (.inl ⟨by simp, rfl⟩)
    | stopAndReverseAtStub inSignal =>
      exact hcons (.stopAndReverseAtStub inSignal) h (.inl ⟨by simp, rfl⟩)

/-- What a transition leaves behind. -/
theorem behind_of_outcome {t : Transition X} (houtcome : Outcome a t s s')
    (hleaves : LeavesBound a t s s') : a.Behind t s' := by
  refine ⟨hleaves.routingloc, hleaves.direction, fun hdone => ?_⟩
  rw [hleaves.copied hdone]
  rcases houtcome.cases with ⟨hsame, -, -⟩ | ⟨-, -, hstate, -⟩
  · exact (hsame _).symm
  · exact absurd hstate hdone

omit [DecidableEq X] in
theorem Behind.keeps {t : Transition X} (h : a.Behind t s)
    (hrouting : s'.bound currentBlockRoutingloc = s.bound currentBlockRoutingloc)
    (hdirection : s'.bound currentDirection = s.bound currentDirection)
    (hbits : ∀ v : Var X, v.isOwn = true → s'.bits v = s.bits v)
    (hdone : s.control.state = UInt8.ofNat stTransitionDone →
      s'.control.state = UInt8.ofNat stTransitionDone) : a.Behind t s' := by
  refine ⟨hrouting.trans h.routing, fun hd => hdirection.trans (h.direction hd), fun hs' => ?_⟩
  rw [hbits _ rfl, hbits _ rfl]
  exact h.copied fun hs => hs' (hdone hs)

variable (a)

instance (t : Transition X) (s : TrainState X) : Decidable (a.Unrivaled t s) :=
  inferInstanceAs (Decidable (∀ t' ∈ a.transitions, t'.source.name = t.source.name →
    s.bits (.helper t'.key) = true → t' = t))

omit [DecidableEq X] in
instance (s : TrainState X) : Decidable (Undecided s) := inferInstanceAs (Decidable (_ ∨ _ ∨ _))

/-- A transition that is tried with the train at its source does not go ahead while the direction
bit of another one from the block is set. -/
def NotOpposed (t : Transition X) (s : TrainState X) : Prop :=
  Undecided s → s.bits (.permaloc t.source.name) = true → ¬ a.Unrivaled t s → t.admits s = false

instance (t : Transition X) (s : TrainState X) : Decidable (a.NotOpposed t s) :=
  inferInstanceAs (Decidable (_ → _ → _ → _))

/-- The condition on a step. -/
def Unopposed (k : Progress X) : Event X → Prop
  | .call =>
    match k.pending with
    | some (⟨_, .transition t⟩ :: _) => a.NotOpposed t k.train
    | _ => True
  | _ => True

instance (k : Progress X) (e : Event X) : Decidable (a.Unopposed k e) := by
  unfold Unopposed
  split
  · split <;> infer_instance
  · infer_instance

/-- What a step does for the chosen transition only. -/
structure Follows (k : Progress X) (e : Event X) (k' : Progress X) : Prop where
  turnouts : ∀ t magnet desiredState rest, e = .call →
    k.pending = some (⟨.transition t, .switchTurnout magnet desiredState⟩ :: rest) →
    k'.train = k.train ∨ k.chosen = some t
  permaloc : SamePermalocs k.train k'.train ∨
    ∃ t ∈ a.transitions, k.chosen = some t ∧ Move t k.train k'.train

/-- A body of transitions with their turnouts. -/
def OnlyLegs : Prop := ∀ c ∈ a.body, (∃ t, c = .transition t) ∨
  ∃ magnet desiredState, c = .switchTurnout magnet desiredState

variable {a}

omit [DecidableEq X] in
theorem mem_transitions {t : Transition X} : t ∈ a.transitions ↔ .transition t ∈ a.body := by
  refine List.mem_filterMap.trans ⟨?_, fun h => ⟨_, h, rfl⟩⟩
  rintro ⟨c, hc, heq⟩
  cases c with
  | transition t' => exact Option.some.inj heq ▸ hc
  | _ => cases heq

/-- A call of a run. -/
theorem Inv.call (heager : ∀ t ∈ a.transitions, t.eager = false) (hlegs : a.OnlyLegs)
    (hapart : a.transitions.Pairwise Apart) (h : a.Inv p k) (hunopposed : a.Unopposed k .call)
    (hstep : a.advance calls k .call = some k') : ∃ p', a.Inv p' k' ∧ a.Follows k .call k' := by
  obtain ⟨q, rest, hpending⟩ : ∃ q rest, k.pending = some (q :: rest) := by
    rw [advance] at hstep
    split at hstep
    · next q rest hpending => exact ⟨q, rest, hpending⟩
    · cases hstep
  obtain ⟨u, hu, rfl⟩ := advance_call hpending hstep
  have hwellBound := h.wellBound (by simp [hpending])
  obtain ⟨current, body, hplace, hmem, hcurrent⟩ := h.coming _ hpending
  obtain ⟨body', rfl, hplace', hq⟩ := place_eq_cons hplace
  have hmem' : ∀ c ∈ body', c ∈ a.body := fun c hc => hmem c (List.mem_cons_of_mem _ hc)
  rcases hlegs q.call (hmem _ List.mem_cons_self) with ⟨t, hcall⟩ | ⟨magnet, desiredState, hcall⟩
  · -- A transition.
    have ht : t ∈ a.transitions := mem_transitions.mpr (hcall ▸ hmem _ List.mem_cons_self)
    rw [render, hcall] at hu
    obtain ⟨u', hu', houtcome, hleaves⟩ := a.transition_outcome t (heager t ht) ht k.train
    obtain rfl := Option.some.inj (hu'.symm.trans hu)
    obtain ⟨p', hp', hat, hdirections, hmove⟩ := h.directions.transition hapart hcall h.location
      h.train ht houtcome fun hundecided hsource hadmits => by
        by_contra hrivaled
        have hrefused : t.admits k.train = false := by
          rw [Unopposed, hpending] at hunopposed
          obtain ⟨current', call⟩ := q
          obtain rfl : call = .transition t := hcall
          exact hunopposed hundecided hsource hrivaled
        rw [hadmits] at hrefused
        cases hrefused
    have hcall' : q.current = .transition t := by
      rcases hq with ⟨-, hsame⟩ | ⟨⟨magnet, value, hturnout⟩, -⟩
      · exact hsame.trans hcall
      · rw [hcall] at hturnout
        cases hturnout
    refine ⟨p', ⟨hp', hat, fun _ => (a.transition_moves t hwellBound hu).1, hdirections, ?_⟩, ?_, ?_⟩
    · rintro rest' heq
      obtain rfl := Option.some.inj heq
      refine ⟨_, body', hplace', hmem', fun c hc => ⟨t, ht, ?_, behind_of_outcome houtcome hleaves⟩⟩
      exact (Option.some.inj hc).symm.trans hcall'
    · rintro t' magnet desiredState rest' - heq
      rw [hpending] at heq
      cases heq
      cases hcall
    · rcases hmove with hsame | ⟨hchosen, hmove⟩
      · exact .inl hsame
      · exact .inr ⟨t, ht, hchosen, hmove⟩
  · -- Turnouts of a transition.
    obtain ⟨t, ht, hcurrent', hbehind⟩ : ∃ t ∈ a.transitions, q.current = .transition t ∧
        a.Behind t k.train := by
      rcases hq with ⟨hother, -⟩ | ⟨-, hq⟩
      · exact absurd hcall (hother magnet desiredState)
      · exact hcurrent _ hq
    have hturnout : run control k.train (a.switchTurnout t.source.name magnet desiredState) =
        some u := by
      rw [render, hcall, hcurrent'] at hu
      exact hu
    have hown : ∀ v : Var X, v.isOwn = true → u.bits v = k.train.bits v := fun v hv =>
      own_run hwellBound (a.own_switchTurnout t.source.name magnet desiredState) hturnout hv
    have hsame : SamePermalocs k.train u := fun n => hown _ rfl
    have hattempting : Attempting u.control.state → Attempting k.train.control.state := by
      have hedges : Edges (fun m n => Attempting (UInt8.ofNat n) → Attempting (UInt8.ofNat m))
          (a.switchTurnout t.source.name magnet desiredState) :=
        a.edges_switchTurnout (by decide) t.source.name magnet desiredState
      have hkeeps := hedges.run (I := fun state => ¬ Attempting state)
        (fun m n hmay hm hn => hm (hmay hn)) hturnout
      exact fun hu => by_contra fun hs => hkeeps hs hu
    have hdone : k.train.control.state = UInt8.ofNat stTransitionDone →
        u.control.state = UInt8.ofNat stTransitionDone := by
      have hedges : Edges (fun m _ => UInt8.ofNat m ≠ UInt8.ofNat stTransitionDone)
          (a.switchTurnout t.source.name magnet desiredState) :=
        a.edges_switchTurnout (by decide) t.source.name magnet desiredState
      exact hedges.run (I := (· = UInt8.ofNat stTransitionDone))
        (fun m n hmay hm => absurd hm hmay) hturnout
    have hkept : ∀ l ∈ [currentBlockRoutingloc, currentDirection],
        u.bound l = k.train.bound l := by
      intro l hl
      refine bound_run ?_ hturnout
      simp only [List.mem_cons, List.not_mem_nil, or_false] at hl
      rcases hl with rfl | rfl <;> simp [switchTurnout]
    have hdecided : decided q k.train u = none := by
      refine if_neg fun hboth => ?_
      have hedges : Edges (fun _ n => UInt8.ofNat n ≠ UInt8.ofNat stReadyToGo)
          (a.switchTurnout t.source.name magnet desiredState) :=
        a.edges_switchTurnout (by decide) t.source.name magnet desiredState
      exact hedges.run (I := (· ≠ UInt8.ofNat stReadyToGo)) (fun m n hmay _ => hmay) hturnout
        hboth.1 hboth.2
    refine ⟨p, ⟨h.location, h.train.same hsame,
      fun _ => ((a.mild_switchTurnout t.source.name magnet desiredState).keeps hwellBound
        hturnout).wellBound, ?_, ?_⟩, ?_, .inl hsame⟩
    · rw [hdecided]
      exact h.directions.mono (fun key => hown _ rfl) hattempting
    · rintro rest' heq
      obtain rfl := Option.some.inj heq
      refine ⟨_, body', hplace', hmem', fun c hc => ⟨t, ht, ?_, hbehind.keeps
        (hkept _ (by simp)) (hkept _ (by simp)) hown hdone⟩⟩
      exact (Option.some.inj hc).symm.trans hcurrent'
    · rintro t' magnet' desiredState' rest' - heq
      rw [hpending] at heq
      obtain ⟨rfl, -⟩ := List.cons.inj (Option.some.inj heq)
      cases hcurrent'
      refine (a.switchTurnout_acts t ht magnet desiredState hbehind.routing hbehind.direction
        hturnout).imp_right fun hacts => ?_
      -- The train stands at the source, and the bits tell the direction.
      obtain ⟨hstate, hrouting, hset⟩ := hacts
      have hsource : k.train.bits (.permaloc t.source.name) = true :=
        (hbehind.copied (by rw [hstate]; decide)).symm.trans hrouting
      obtain rfl := h.train.2 _ (mem_locations ht).1 hsource
      exact (h.directions.eq_of_taken hapart ht (by rw [hstate]; decide) hset).1

/-- The beginning of a run, behind a change. -/
theorem Inv.change {calls : List (Placed X)} (hplace : place none a.body = some calls)
    (h : a.Inv p k) {c : Change X} (hstep : a.advance calls k (.change c) = some k') :
    a.Inv p k' ∧ a.Follows k (.change c) k' := by
  rw [advance] at hstep
  split at hstep
  · obtain rfl := Option.some.inj hstep
    have hown : ∀ v : Var X, v.isOwn = true → (c.apply k.train).bits v = k.train.bits v :=
      fun v hv => bits_apply c k.train hv
    have hsame : SamePermalocs k.train { c.apply k.train with bound := fun _ => none } :=
      fun n => hown (.permaloc n) rfl
    refine ⟨⟨h.location, h.train.same hsame, fun _ _ _ hbound => (by cases hbound), ?_, ?_⟩, nofun,
      .inl hsame⟩
    · exact h.directions.same (fun key => hown (.helper key) rfl) Iff.rfl
    · rintro rest heq
      obtain rfl := Option.some.inj heq
      exact ⟨none, a.body, hplace, fun _ hc => hc, nofun⟩
  · cases hstep

/-- The end of a run. -/
theorem Inv.finish {calls : List (Placed X)} (h : a.Inv p k)
    (hstep : a.advance calls k .finish = some k') : a.Inv p k' ∧ a.Follows k .finish k' := by
  rw [advance] at hstep
  split at hstep
  · next hpending =>
    obtain ⟨u, hu, rfl⟩ := Option.map_eq_some_iff.mp hstep
    have hwellBound := h.wellBound (by simp [hpending])
    have hown : ∀ v : Var X, v.isOwn = true → u.bits v = k.train.bits v := fun v hv =>
      own_run hwellBound a.own_afterTransition hu hv
    have hedges : Edges (fun m n => Attempting (UInt8.ofNat n) → Attempting (UInt8.ofNat m))
        a.afterTransition := a.edges_afterTransition (by decide)
    have hkeeps := hedges.run (I := fun state => ¬ Attempting state)
      (fun m n hmay hm hn => hm (hmay hn)) hu
    have hsame : SamePermalocs k.train u := fun n => hown _ rfl
    refine ⟨⟨h.location, h.train.same hsame, fun hne => absurd rfl hne, ?_, nofun⟩, nofun,
      .inl hsame⟩
    exact h.directions.mono (fun key => hown _ rfl)
      fun hs' => by_contra fun hs => hkeeps hs hs'
  · cases hstep

theorem Inv.step {calls : List (Placed X)} (hplace : place none a.body = some calls)
    (heager : ∀ t ∈ a.transitions, t.eager = false) (hlegs : a.OnlyLegs)
    (hapart : a.transitions.Pairwise Apart) (h : a.Inv p k) {e : Event X}
    (hunopposed : a.Unopposed k e) (hstep : a.advance calls k e = some k') :
    ∃ p', a.Inv p' k' ∧ a.Follows k e k' := by
  cases e with
  | change c => exact ⟨p, h.change hplace hstep⟩
  | call => exact h.call heager hlegs hapart hunopposed hstep
  | finish => exact ⟨p, h.finish hstep⟩

variable (a)

/-- The train is told one direction: in the states of a train that has been told its direction, with
the train at a block with several transitions, the direction bit of exactly one of these is set, and
it is the one that was last decided to be taken. -/
def OneDirection (k : Progress X) : Prop := IsOneOf committed k.train.control.state →
  ∃ p ∈ a.locations, a.OnlyAt p k.train ∧ (1 < a.numDirections p →
    ∃ t ∈ a.transitions, k.chosen = some t ∧ t.source.name = p ∧
      ∀ t' ∈ a.transitions, t'.source.name = p →
        (k.train.bits (.helper t'.key) = true ↔ t' = t))

variable {a}

theorem Inv.oneDirection (hapart : a.transitions.Pairwise Apart) (h : a.Inv p k) :
    a.OneDirection k := by
  intro hcommitted
  refine ⟨p, h.location, h.train, fun hmany => ?_⟩
  have hattempting : Attempting k.train.control.state := by
    obtain ⟨n, hn, hstate⟩ := hcommitted
    exact ⟨n, List.mem_cons_of_mem _ hn, hstate⟩
  obtain ⟨t, ht, hchosen, hsource, htowards⟩ := by
    have hdirections := h.directions
    rwa [Directions, if_pos hattempting] at hdirections
  have himports : a.importsDirection t = true := by
    simp [importsDirection, hsource, hmany]
  refine ⟨t, ht, hchosen, hsource, fun t' ht' hsource' => (htowards t' ht').trans ⟨?_, ?_⟩⟩
  · rintro ⟨-, hkey⟩
    exact eq_of_key hapart ht ht' (hsource'.trans hsource.symm) fun _ => hkey
  · rintro rfl
    exact ⟨himports, rfl⟩

/-- A schedule commits to one direction, in every history of which no step is opposed. -/
theorem commits_to_one_direction {calls : List (Placed X)}
    (hplace : place none a.body = some calls) (heager : ∀ t ∈ a.transitions, t.eager = false)
    (hlegs : a.OnlyLegs) (hapart : a.transitions.Pairwise Apart)
    (hinit : k.train.control.state = UInt8.ofNat stInit) (hidle : k.pending = none)
    (hone : OneTrain a.locations k.train)
    (hzero : ∀ t ∈ a.transitions, k.train.bits (.helper t.key) = false) {history : List (Event X)}
    (heach : Trace.EachStep (a.advance calls) (fun _ k e _ => a.Unopposed k e) k history) :
    Trace.Always (a.advance calls) (fun _ k => k.pending = none → a.OneDirection k) k history ∧
      Trace.EachStep (a.advance calls) (fun _ k e k' => a.Follows k e k') k history := by
  obtain ⟨p, hp, hset, honly⟩ := hone
  have hstart : a.Inv p k := by
    refine ⟨hp, ⟨hset, honly⟩, fun hne => absurd hidle hne, directions_of_stale ?_ ?_, ?_⟩
    · intro t ht hset
      rw [hzero t ht] at hset
      cases hset
    · rw [hinit]
      decide
    · intro rest hpending
      rw [hidle] at hpending
      cases hpending
  have halways : Trace.Always (a.advance calls) (fun _ k => ∃ p, a.Inv p k) k history := by
    refine Trace.always ⟨p, hstart⟩ (fun past e k k' _ hinv hunopposed hstep => ?_) heach
    obtain ⟨p, hinv⟩ := hinv
    obtain ⟨p', hinv', -⟩ := hinv.step hplace heager hlegs hapart hunopposed hstep
    exact ⟨p', hinv'⟩
  refine ⟨fun past future k' heq hrun _ => ?_, fun past e future k₁ k₂ heq hrun hstep => ?_⟩
  · obtain ⟨p, hinv⟩ := halways past future k' heq hrun
    exact hinv.oneDirection hapart
  · obtain ⟨p, hinv⟩ := halways past (e :: future) k₁ heq hrun
    have hunopposed := heach past e future k₁ k₂ heq hrun hstep
    obtain ⟨-, -, hfollows⟩ := hinv.step hplace heager hlegs hapart hunopposed hstep
    exact hfollows

/-! ### Two ways out of a block -/

/-- From the first block to the second or to the third. -/
def twoWays : Schedule Nat where
  body := [.transition (addDirectBlockTransition blockA blockB [] false),
    .transition (addDirectBlockTransition blockA blockC [] false)]
  trainNodeId := 0x060100001384
  speedVar := none
  resetRoutes := none

/-- The train at the first block, in the initial state, between two runs. -/
def twoWaysStart : Progress Nat := ⟨trainAtA, none, none⟩

/-- Only the detector of the train's block is on. -/
def onlyDetector : Change Nat := ⟨fun v => v == .layout blockA.srcDetector, 0⟩

/-- Runs behind the same change. -/
def sameRuns (a : Schedule Nat) (n : Nat) : List (Event Nat) :=
  (List.replicate n (.change onlyDetector :: a.body.map (fun _ => .call) ++ [.finish])).flatten

theorem twoWays_commits : ∃ calls k', place none twoWays.body = some calls ∧
    Trace.run (twoWays.advance calls) twoWaysStart (sameRuns twoWays 5) = some k' ∧
    k'.train.control.state = UInt8.ofNat stGreenRequested ∧ twoWays.OneDirection k' := by
  have hrun : ((place none twoWays.body).bind fun calls =>
      (Trace.run (twoWays.advance calls) twoWaysStart (sameRuns twoWays 5)).bind fun k =>
        if Trace.check (twoWays.advance calls) (fun k e => decide (twoWays.Unopposed k e))
          twoWaysStart (sameRuns twoWays 5) then
          some (k.train.control.state, k.pending) else none) =
      some (UInt8.ofNat stGreenRequested, none) := by decide
  obtain ⟨calls, hplace, hrun⟩ := Option.bind_eq_some_iff.mp hrun
  obtain ⟨k', hrun, hstate⟩ := Option.bind_eq_some_iff.mp hrun
  split at hstate
  · next hcheck =>
    obtain ⟨hstate, hidle⟩ := Prod.mk.inj (Option.some.inj hstate)
    refine ⟨calls, k', hplace, hrun, hstate, ?_⟩
    have heach : Trace.EachStep (twoWays.advance calls) (fun _ k e _ => twoWays.Unopposed k e)
        twoWaysStart (sameRuns twoWays 5) := fun past e future k k' heq hrun hstep =>
      of_decide_eq_true (Trace.eachStep_of_check hcheck past e future k k' heq hrun hstep)
    have hone : OneTrain twoWays.locations trainAtA := by
      refine ⟨"A", ?_, ?_, ?_⟩ <;> decide
    have hlegs : twoWays.OnlyLegs := by simp [OnlyLegs, twoWays]
    have hapart : twoWays.transitions.Pairwise Apart := by
      simp [transitions, twoWays, Call.transition?, addDirectBlockTransition, Apart, blockA, blockB,
        blockC, numberedBlock]
    exact (commits_to_one_direction (k := twoWaysStart) hplace (by decide) hlegs
      hapart rfl rfl hone (by decide) heach).1 _ [] k' (List.append_nil _).symm
        hrun hidle
  · cases hstate

/-- An attempt that fails leaves its direction bit to the transition behind it. -/
theorem twoWays_two_directions : ∃ calls k', place none twoWays.body = some calls ∧
    Trace.run (twoWays.advance calls) twoWaysStart (sameRuns twoWays 7) = some k' ∧
    k'.pending = none ∧ ¬ twoWays.OneDirection k' := by
  have hrun : ((place none twoWays.body).bind fun calls =>
      (Trace.run (twoWays.advance calls) twoWaysStart (sameRuns twoWays 7)).map fun k =>
        (k.pending, k.train.control.state,
          twoWays.transitions.map fun t => k.train.bits (.helper t.key),
          twoWays.locations.map fun n => k.train.bits (.permaloc n))) =
      some (none, UInt8.ofNat stTurnout, [true, true], [true, false, true, false]) := by
    decide
  obtain ⟨calls, hplace, hrun⟩ := Option.bind_eq_some_iff.mp hrun
  obtain ⟨k', hrun, hend⟩ := Option.map_eq_some_iff.mp hrun
  simp only [Prod.mk.injEq] at hend
  obtain ⟨hidle, hstate, hdirections, hlocations⟩ := hend
  refine ⟨calls, k', hplace, hrun, hidle, fun hone => ?_⟩
  obtain ⟨p, hp, hat, hdirection⟩ := hone ⟨stTurnout, by decide, hstate⟩
  have hset : ∀ t ∈ twoWays.transitions, k'.train.bits (.helper t.key) = true :=
    List.map_eq_replicate_iff.mp hdirections
  have hp : p = "A" := by
    have hB : k'.train.bits (.permaloc "B") = false := (List.cons.inj (List.cons.inj hlocations).2).1
    have hC : k'.train.bits (.permaloc "C") = false :=
      (List.cons.inj (List.cons.inj (List.cons.inj (List.cons.inj hlocations).2).2).2).1
    have hmem : p = "A" ∨ p = "B" ∨ p = "A" ∨ p = "C" := by
      simpa [locations, twoWays, Call.locations, addDirectBlockTransition, blockA, blockB, blockC,
        numberedBlock] using hp
    rcases hmem with rfl | rfl | rfl | rfl
    · rfl
    · exact absurd hat.1 (by simp [hB])
    · rfl
    · exact absurd hat.1 (by simp [hC])
  subst hp
  obtain ⟨t, -, -, -, hone⟩ := hdirection (by decide)
  have hmem : addDirectBlockTransition blockA blockB [] false ∈ twoWays.transitions ∧
      addDirectBlockTransition blockA blockC [] false ∈ twoWays.transitions := by decide
  have hB := (hone _ hmem.1 rfl).mp (hset _ hmem.1)
  have hC := (hone _ hmem.2 rfl).mp (hset _ hmem.2)
  exact absurd (hB.trans hC.symm) (by decide)

end Schedule

end OpenmrnCue.TrainSchedule
