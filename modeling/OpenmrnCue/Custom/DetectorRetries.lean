import OpenmrnCue.Custom.DetectorRest

/-! The power of a detector port and its retries.  The output is never on while the network wants it
off or after a short.  The retries of a turn-on are bounded by the configured count only while the
field of three bits that counts them can hold that count. -/

namespace OpenmrnCue.Custom

open StateFlow

namespace DetectorPort

variable {s s' : DetectorPort} {opts : DetectorOptions}

/-- The output is on only if the network wants it on and it is not shorted. -/
def Safe (s : DetectorPort) : Prop :=
  s.commandedEnable = true → s.networkEnable = true ∧ s.killedOutputDueToOvercurrent = false

/-- The invariant: the first state, which reads the stored bit, finds the output off. -/
structure Powered (s : DetectorPort) : Prop where
  safe : s.Safe
  dark : s.flow.state = .initStart → s.commandedEnable = false

theorem powered_start (storedEnable storedOccupancy : Bool) :
    (start storedEnable storedOccupancy).Powered :=
  ⟨nofun, fun _ => rfl⟩

@[simp] theorem wakeupNormalState_commandedEnable (s : DetectorPort) :
    s.wakeupNormalState.commandedEnable = s.commandedEnable := by
  unfold wakeupNormalState
  split_ifs <;> rfl

@[simp] theorem wakeupNormalState_networkEnable (s : DetectorPort) :
    s.wakeupNormalState.networkEnable = s.networkEnable := by
  unfold wakeupNormalState
  split_ifs <;> rfl

@[simp] theorem wakeupNormalState_killed (s : DetectorPort) :
    s.wakeupNormalState.killedOutputDueToOvercurrent = s.killedOutputDueToOvercurrent := by
  unfold wakeupNormalState
  split_ifs <;> rfl

@[simp] theorem wakeupNormalState_state (s : DetectorPort) :
    s.wakeupNormalState.flow.state = s.flow.state := by
  unfold wakeupNormalState
  split_ifs <;> rfl

@[simp] theorem wakeupNormalState_turnonTryCount (s : DetectorPort) :
    s.wakeupNormalState.turnonTryCount = s.turnonTryCount := by
  unfold wakeupNormalState
  split_ifs <;> rfl

theorem Powered.wakeup (h : s.Powered) : s.wakeupNormalState.Powered :=
  ⟨by simpa [Safe] using h.safe, by simpa using h.dark⟩

/-- The calls from outside leave the state of the flow and the count of the tries alone. -/
theorem frame_step {input : DetectorInput} (hinput : input ≠ .flow)
    (hstep : s.step opts input = some s') :
    s'.flow.state = s.flow.state ∧ s'.turnonTryCount = s.turnonTryCount := by
  cases input with
  | flow => exact absurd rfl hinput
  | timerExpired =>
    simp only [step, Option.ite_none_right_eq_some, Option.some.injEq] at hstep
    obtain ⟨-, rfl⟩ := hstep
    exact ⟨rfl, rfl⟩
  | sent =>
    simp only [step, Option.ite_none_left_eq_some, Option.some.injEq] at hstep
    obtain ⟨-, rfl⟩ := hstep
    exact ⟨rfl, rfl⟩
  | setOvercurrent value =>
    cases hstep
    unfold setOvercurrent
    split_ifs <;> simp [setOutputEnable]
  | setOccupancy value =>
    cases hstep
    cases value <;> simp [setOccupancy]
  | setNetworkOccupancy value =>
    cases hstep
    unfold setNetworkOccupancy
    simp only
    split_ifs <;> simp
  | setNetworkOvercurrent value =>
    cases hstep
    simp [setNetworkOvercurrent]
  | setNetworkEnable value =>
    cases hstep
    unfold setNetworkEnable
    simp only
    split_ifs <;> simp [setOutputEnable, notify]
  | setHaveDccSignal | optionsLoaded =>
    cases hstep
    exact ⟨rfl, rfl⟩

variable (opts) in
/-- What a state of the flow does to the output: nothing, or it turns it off, or `try_turnon` turns
it on after a look at the network's wish. -/
theorem runState_output (hstate : s.flow.state ≠ .initStart) :
    (finish (s.runState opts)).flow.state ≠ .initStart ∧
    (finish (s.runState opts)).networkEnable = s.networkEnable ∧
    (((finish (s.runState opts)).commandedEnable = s.commandedEnable ∧
        (finish (s.runState opts)).killedOutputDueToOvercurrent = s.killedOutputDueToOvercurrent) ∨
      (finish (s.runState opts)).commandedEnable = false ∨
      (s.networkEnable = true ∧
        (finish (s.runState opts)).killedOutputDueToOvercurrent = false)) := by
  have hkeep : ∀ {t : DetectorPort}, t.flow.state ≠ .initStart → t.networkEnable = s.networkEnable →
      t.commandedEnable = s.commandedEnable →
      t.killedOutputDueToOvercurrent = s.killedOutputDueToOvercurrent →
      t.flow.state ≠ .initStart ∧ t.networkEnable = s.networkEnable ∧
        ((t.commandedEnable = s.commandedEnable ∧
            t.killedOutputDueToOvercurrent = s.killedOutputDueToOvercurrent) ∨
          t.commandedEnable = false ∨
          (s.networkEnable = true ∧ t.killedOutputDueToOvercurrent = false)) :=
    fun hnext henable hcommanded hkilled => ⟨hnext, henable, Or.inl ⟨hcommanded, hkilled⟩⟩
  unfold runState
  cases hs : s.flow.state <;> simp only
  case initStart => exact absurd hs hstate
  case initWait =>
    unfold initWait
    split_ifs
    · exact hkeep nofun rfl rfl rfl
    · exact hkeep nofun rfl rfl rfl
    · exact ⟨nofun, rfl, Or.inr (Or.inl rfl)⟩
    · exact hkeep nofun rfl rfl rfl
  case tryTurnon =>
    unfold tryTurnon
    split_ifs with henable
    · exact hkeep nofun rfl rfl rfl
    · exact hkeep nofun rfl rfl rfl
    · exact ⟨nofun, rfl, Or.inr (Or.inr ⟨by simpa using henable, rfl⟩)⟩
  case setNetworkOff => exact ⟨nofun, rfl, Or.inr (Or.inl rfl)⟩
  case networkOff =>
    unfold networkOff
    split_ifs
    · exact hkeep hstate rfl rfl rfl
    · exact hkeep nofun rfl rfl rfl
  case waitForDccToTurnOn =>
    unfold waitForDccToTurnOn
    split_ifs <;> exact hkeep nofun rfl rfl rfl
  case evalTurnon =>
    unfold evalTurnon
    split_ifs <;> exact hkeep nofun rfl rfl rfl
  case produceShorted =>
    unfold produceShorted
    split_ifs <;> exact hkeep nofun rfl rfl rfl
  case produceNotShorted =>
    unfold produceNotShorted
    split_ifs <;> exact hkeep nofun rfl rfl rfl
  case evalNormalState =>
    unfold evalNormalState
    simp only
    split_ifs <;> exact hkeep nofun rfl rfl rfl
  case sensorDebounceDone =>
    unfold sensorDebounceDone
    split_ifs <;> exact hkeep nofun rfl rfl rfl
  all_goals exact hkeep nofun rfl rfl rfl

theorem Powered.step (h : s.Powered) {input : DetectorInput} (hstep : s.step opts input = some s') :
    s'.Powered := by
  cases input with
  | setOvercurrent value =>
    cases hstep
    unfold setOvercurrent
    split_ifs
    · exact Powered.wakeup ⟨nofun, fun _ => rfl⟩
    · exact h
  | setHaveDccSignal | optionsLoaded =>
    cases hstep
    exact ⟨h.safe, h.dark⟩
  | setOccupancy value =>
    cases hstep
    cases value <;> exact Powered.wakeup ⟨h.safe, h.dark⟩
  | setNetworkOccupancy value =>
    cases hstep
    unfold setNetworkOccupancy
    simp only
    split_ifs <;> exact Powered.wakeup ⟨h.safe, h.dark⟩
  | setNetworkOvercurrent value =>
    cases hstep
    exact Powered.wakeup ⟨h.safe, h.dark⟩
  | setNetworkEnable value =>
    cases hstep
    unfold setNetworkEnable
    cases value with
    | false =>
      simp only [Bool.false_and, Bool.false_eq_true, if_false, Bool.not_false, if_true]
      exact Powered.wakeup ⟨nofun, fun _ => rfl⟩
    | true =>
      simp only [Bool.true_and, Bool.not_true, Bool.false_eq_true, if_false]
      split_ifs <;> exact Powered.wakeup ⟨fun hon => ⟨rfl, (h.safe hon).2⟩, h.dark⟩
  | timerExpired =>
    simp only [DetectorPort.step, Option.ite_none_right_eq_some, Option.some.injEq] at hstep
    obtain ⟨-, rfl⟩ := hstep
    exact ⟨h.safe, h.dark⟩
  | sent =>
    simp only [DetectorPort.step, Option.ite_none_left_eq_some, Option.some.injEq] at hstep
    obtain ⟨-, rfl⟩ := hstep
    exact ⟨h.safe, h.dark⟩
  | flow =>
    obtain ⟨flow, hdispatch, rfl⟩ := Option.map_eq_some_iff.mp hstep
    obtain ⟨hsame, -⟩ := Flow.dispatch_eq_some hdispatch
    by_cases hstate : s.flow.state = .initStart
    · have hdark := h.dark hstate
      have heq : (({ s with flow } : DetectorPort).runState opts) = ({ s with flow }).initStart := by
        rw [runState]
        simp only [hsame, hstate]
      rw [heq]
      refine ⟨fun hon => absurd (hdark.symm.trans hon) (by decide), fun _ => hdark⟩
    · obtain ⟨hnext, henable, houtput⟩ :=
        runState_output opts (s := { s with flow }) (by simpa [hsame] using hstate)
      refine ⟨fun hon => ?_, fun h => absurd h hnext⟩
      rw [henable]
      rcases houtput with ⟨hcommanded, hkilled⟩ | hoff | ⟨hwanted, hkilled⟩
      · rw [hkilled]
        exact h.safe (hcommanded.symm.trans hon)
      · exact absurd (hoff.symm.trans hon) (by decide)
      · exact ⟨hwanted, hkilled⟩

end DetectorPort

/-- A port with a history variable: how many times `try_turnon` has switched the output on since the
flow last went to `produce_shorted` or `produce_not_shorted`. -/
structure CountedPort where
  port : DetectorPort
  turnons : Nat

namespace CountedPort

def start (storedEnable storedOccupancy : Bool) : CountedPort :=
  ⟨.start storedEnable storedOccupancy, 0⟩

/-- The count after the flow went from one state to the next. -/
def turnonsAfter (turnons : Nat) (before after : DetectorState) : Nat :=
  if after = .produceShorted ∨ after = .produceNotShorted then 0
  else if before = .tryTurnon ∧ after = .evalTurnon then turnons + 1
  else turnons

def step (opts : DetectorOptions) (s : CountedPort) (input : DetectorInput) : Option CountedPort :=
  (s.port.step opts input).map fun port =>
    ⟨port, match input with
      | .flow => turnonsAfter s.turnons s.port.flow.state port.flow.state
      | _ => s.turnons⟩

/-- The flow starts to count its tries afresh, after it has switched the output on. -/
def restarts (s : CountedPort) : DetectorInput → Bool
  | .flow => s.port.flow.state = .initTryTurnon && 0 < s.turnons
  | _ => false

/-- The tries that a state still allows, in terms of the field that counts them. -/
def Bounded (opts : DetectorOptions) (turnons tries : Nat) : DetectorState → Prop
  | .tryTurnon | .waitForDccToTurnOn => turnons ≤ tries ∧ turnons ≤ opts.turnonRetryCount.toNat
  | .evalTurnon => turnons ≤ tries + 1 ∧ turnons ≤ opts.turnonRetryCount.toNat + 1
  | .produceShorted | .produceNotShorted | .shortWaitForRetry | .evalNormalState | .delayNormal
  | .produceOccupancy | .sensorDebounceDone => turnons = 0
  | .initStart | .initWait | .initTryTurnon | .setNetworkOff | .networkOff =>
    turnons ≤ opts.turnonRetryCount.toNat + 1

theorem Bounded.le {opts : DetectorOptions} {turnons tries : Nat} {state : DetectorState}
    (h : Bounded opts turnons tries state) : turnons ≤ opts.turnonRetryCount.toNat + 1 := by
  cases state <;> simp only [Bounded] at h <;> omega

variable {opts : DetectorOptions} {s s' : CountedPort}

/-- The flow's states keep the bound, as long as the field can hold the configured count. -/
theorem bounded_runState {port : DetectorPort} {turnons : Nat}
    (hcount : opts.turnonRetryCount.toNat < 8)
    (h : Bounded opts turnons port.turnonTryCount port.flow.state)
    (hrestart : port.flow.state = .initTryTurnon → turnons = 0) :
    Bounded opts
      (turnonsAfter turnons port.flow.state (DetectorPort.finish (port.runState opts)).flow.state)
      (DetectorPort.finish (port.runState opts)).turnonTryCount
      (DetectorPort.finish (port.runState opts)).flow.state := by
  -- The count of the tries does not wrap around while it is below the configured count.
  have htry : port.turnonTryCount < opts.turnonRetryCount.toNat →
      (port.turnonTryCount + 1) % 2 ^ 3 = port.turnonTryCount + 1 := fun hlt => by omega
  unfold DetectorPort.runState
  cases hstate : port.flow.state <;> rw [hstate] at h hrestart <;> simp only
  case initStart => exact h
  case initWait =>
    unfold DetectorPort.initWait
    split_ifs <;> exact h
  case initTryTurnon =>
    obtain rfl := hrestart rfl
    exact ⟨Nat.zero_le _, Nat.zero_le _⟩
  case tryTurnon =>
    unfold DetectorPort.tryTurnon
    split_ifs
    · exact Nat.le_succ_of_le h.2
    · exact h
    · exact ⟨Nat.succ_le_succ h.1, Nat.succ_le_succ h.2⟩
  case waitForDccToTurnOn =>
    unfold DetectorPort.waitForDccToTurnOn
    split_ifs with _ hlt
    · exact Nat.le_succ_of_le h.2
    · refine ⟨?_, h.2⟩
      change turnons ≤ (port.turnonTryCount + 1) % 2 ^ 3
      rw [htry hlt]
      exact Nat.le_succ_of_le h.1
    · exact rfl
    · exact Nat.le_succ_of_le h.2
  case evalTurnon =>
    unfold DetectorPort.evalTurnon
    split_ifs with _ _ hretry
    · exact h.2
    · have hlt : port.turnonTryCount < opts.turnonRetryCount.toNat := by
        simp only [Bool.and_eq_true, decide_eq_true_eq] at hretry
        exact hretry.1
      refine ⟨?_, Nat.le_trans h.1 hlt⟩
      change turnons ≤ (port.turnonTryCount + 1) % 2 ^ 3
      rw [htry hlt]
      exact h.1
    · exact rfl
    · exact rfl
  case setNetworkOff => exact h
  case networkOff =>
    unfold DetectorPort.networkOff
    split_ifs
    · have hsame : (DetectorPort.finish (port, .wait)).flow.state = .networkOff := hstate
      rw [hsame]
      exact h
    · exact h
  case produceShorted =>
    unfold DetectorPort.produceShorted
    split_ifs <;> exact h
  case produceNotShorted =>
    unfold DetectorPort.produceNotShorted
    split_ifs <;> exact h
  case shortWaitForRetry =>
    obtain rfl : turnons = 0 := h
    exact ⟨Nat.zero_le _, Nat.zero_le _⟩
  case evalNormalState =>
    obtain rfl : turnons = 0 := h
    unfold DetectorPort.evalNormalState
    simp only
    split_ifs
    · exact ⟨Nat.zero_le _, Nat.zero_le _⟩
    · exact Nat.zero_le _
    all_goals exact rfl
  case delayNormal => exact h
  case produceOccupancy => exact h
  case sensorDebounceDone =>
    obtain rfl : turnons = 0 := h
    unfold DetectorPort.sensorDebounceDone
    split_ifs
    · exact ⟨Nat.zero_le _, Nat.zero_le _⟩
    · exact Nat.zero_le _
    all_goals exact rfl

theorem step_eq_some {input : DetectorInput} (hstep : s.step opts input = some s') :
    s.port.step opts input = some s'.port ∧
      ((input = .flow ∧
          s'.turnons = turnonsAfter s.turnons s.port.flow.state s'.port.flow.state) ∨
        (input ≠ .flow ∧ s'.turnons = s.turnons)) := by
  obtain ⟨port, hport, rfl⟩ := Option.map_eq_some_iff.mp hstep
  refine ⟨hport, ?_⟩
  cases input with
  | flow => exact Or.inl ⟨rfl, rfl⟩
  | _ => exact Or.inr ⟨nofun, rfl⟩

theorem bounded_step {input : DetectorInput} (hcount : opts.turnonRetryCount.toNat < 8)
    (h : Bounded opts s.turnons s.port.turnonTryCount s.port.flow.state)
    (hrestarts : s.restarts input = false) (hstep : s.step opts input = some s') :
    Bounded opts s'.turnons s'.port.turnonTryCount s'.port.flow.state := by
  obtain ⟨hport, ⟨rfl, heq⟩ | ⟨hinput, heq⟩⟩ := step_eq_some hstep
  · obtain ⟨flow, hdispatch, hport⟩ := Option.map_eq_some_iff.mp hport
    obtain ⟨hsame, -⟩ := Flow.dispatch_eq_some hdispatch
    have hrestart : s.port.flow.state = .initTryTurnon → s.turnons = 0 := fun hstate => by
      simpa [restarts, hstate] using hrestarts
    rw [heq, ← hport, ← hsame]
    exact bounded_runState hcount (by simpa [hsame] using h) (by simpa [hsame] using hrestart)
  · obtain ⟨hstate, htries⟩ := DetectorPort.frame_step hinput hport
    rw [heq, hstate, htries]
    exact h

theorem powered_step {input : DetectorInput} (h : s.port.Powered)
    (hstep : s.step opts input = some s') : s'.port.Powered :=
  h.step (step_eq_some hstep).1

/-! The persistent short. -/

/-- A round of a turn-on that fails: the output is switched on, shorted, and tried again. -/
def failedTry : List DetectorInput := [.flow, .setOvercurrent true, .timerExpired, .flow]

/-- The way from construction to the first try. -/
def toFirstTry : List DetectorInput :=
  [.optionsLoaded, .setHaveDccSignal true, .setNetworkEnable true, .flow, .flow, .timerExpired, .flow]

/-- The flow is about to switch on the output, which it has done `turnons` times in vain. -/
structure Trying (turnons : Nat) (s : CountedPort) : Prop where
  state : s.port.flow = ⟨.tryTurnon, true, 0⟩
  enabled : s.port.networkEnable = true
  signal : s.port.lostDccSignal = false
  waits : s.port.isWaitingForLoop = false
  tries : s.port.turnonTryCount < 8
  turnons : s.turnons = turnons

theorem trying_start (opts : DetectorOptions) (storedEnable storedOccupancy : Bool) :
    ∃ s, Trace.run (step opts) (start storedEnable storedOccupancy) toFirstTry = some s ∧
      Trying 0 s ∧ Trace.check (step opts) (fun s input => !s.restarts input)
        (start storedEnable storedOccupancy) toFirstTry = true :=
  ⟨_, rfl, ⟨rfl, rfl, rfl, rfl, Nat.succ_pos 7, rfl⟩, rfl⟩

/-- A count that the field cannot reach leads to another try after every one. -/
theorem Trying.round {turnons : Nat} (h : Trying turnons s)
    (hcount : 8 ≤ opts.turnonRetryCount.toNat) :
    ∃ s', Trace.run (step opts) s failedTry = some s' ∧ Trying (turnons + 1) s' ∧
      Trace.check (step opts) (fun s input => !s.restarts input) s failedTry = true := by
  have hretry : s.port.turnonTryCount < opts.turnonRetryCount.toNat :=
    Nat.lt_of_lt_of_le h.tries hcount
  -- The output is switched on, it is shorted, and the timer expires.
  obtain ⟨shorted, hshorted, hcheck, hflow, henabled, hsignal, hkilled, hwaits, htries, hturnons⟩ :
      ∃ t, Trace.run (step opts) s [.flow, .setOvercurrent true, .timerExpired] = some t ∧
        Trace.check (step opts) (fun s input => !s.restarts input) s
          [.flow, .setOvercurrent true, .timerExpired] = true ∧
        t.port.flow = ⟨.evalTurnon, false, 1⟩ ∧ t.port.networkEnable = true ∧
        t.port.lostDccSignal = false ∧ t.port.killedOutputDueToOvercurrent = true ∧
        t.port.isWaitingForLoop = false ∧ t.port.turnonTryCount = s.port.turnonTryCount ∧
        t.turnons = turnons + 1 := by
    obtain ⟨port, count⟩ := s
    obtain ⟨hflow, henabled, hsignal, hwaits, -, rfl⟩ := h
    cases port
    cases hflow
    cases henabled
    cases hsignal
    cases hwaits
    exact ⟨_, rfl, rfl, rfl, rfl, rfl, rfl, rfl, rfl, rfl⟩
  -- The flow evaluates the turn-on.
  obtain ⟨next, heval, htrying⟩ : ∃ t, step opts shorted .flow = some t ∧ Trying (turnons + 1) t := by
    refine ⟨⟨{ shorted.port with
      flow := ⟨.tryTurnon, true, 0⟩
      turnonTryCount := (shorted.port.turnonTryCount + 1) % 2 ^ 3 }, turnons + 1⟩, ?_,
      ⟨rfl, henabled, hsignal, hwaits, Nat.mod_lt _ (by decide), rfl⟩⟩
    rw [← htries] at hretry
    simp [step, DetectorPort.step, Flow.dispatch, hflow, DetectorPort.runState,
      DetectorPort.evalTurnon, henabled, hkilled, hretry, hsignal, DetectorPort.countTry,
      DetectorPort.finish, turnonsAfter, hturnons]
  refine ⟨next, ?_, htrying, ?_⟩
  · rw [failedTry, show [DetectorInput.flow, .setOvercurrent true, .timerExpired, .flow] =
      [.flow, .setOvercurrent true, .timerExpired] ++ [.flow] from rfl, Trace.run_concat, hshorted]
    exact heval
  · rw [failedTry, show [DetectorInput.flow, .setOvercurrent true, .timerExpired, .flow] =
      [.flow, .setOvercurrent true, .timerExpired] ++ [.flow] from rfl,
      Trace.check_append hshorted, hcheck]
    simp [Trace.check, heval, restarts, hflow]

/-- The history of a short that lasts for a number of rounds. -/
def lasting (rounds : Nat) : List DetectorInput := toFirstTry ++ (List.replicate rounds failedTry).flatten

variable (opts) in
theorem lasting_tries (storedEnable storedOccupancy : Bool) (hcount : 8 ≤ opts.turnonRetryCount.toNat)
    (rounds : Nat) :
    ∃ s, Trace.run (step opts) (start storedEnable storedOccupancy) (lasting rounds) = some s ∧
      Trying rounds s ∧ Trace.check (step opts) (fun s input => !s.restarts input)
        (start storedEnable storedOccupancy) (lasting rounds) = true := by
  induction rounds with
  | zero => exact trying_start opts storedEnable storedOccupancy
  | succ rounds ih =>
    obtain ⟨t, hrun, htrying, hcheck⟩ := ih
    obtain ⟨u, hround, htrying', hcheck'⟩ := htrying.round hcount
    have heq : lasting (rounds + 1) = lasting rounds ++ failedTry := by
      simp [lasting, List.replicate_succ']
    refine ⟨u, ?_, htrying', ?_⟩
    · rw [heq, Trace.run_append, hrun]
      exact hround
    · rw [heq, Trace.check_append hrun, hcheck, hcheck']
      rfl

/-- In every run the output is on only while the network wants it on and it is not shorted; and the
configured count bounds the tries in all runs that do not start to count afresh exactly if it fits
into the field of three bits. -/
theorem safe_and_turnons_bounded_iff (opts : DetectorOptions) (storedEnable storedOccupancy : Bool) :
    (∀ history, Trace.Always (step opts) (fun _ s => s.port.Safe) (start storedEnable storedOccupancy)
      history) ∧
    ((∀ history, Trace.EachStep (step opts) (fun _ s input _ => s.restarts input = false)
        (start storedEnable storedOccupancy) history →
      Trace.Always (step opts) (fun _ s => s.turnons ≤ opts.turnonRetryCount.toNat + 1)
        (start storedEnable storedOccupancy) history) ↔
      opts.turnonRetryCount.toNat < 8) := by
  refine ⟨fun history past future s heq hrun => ?_, fun h => ?_, fun hcount history hrestarts => ?_⟩
  · exact (Trace.invariant_of_step (I := fun _ (s : CountedPort) => s.port.Powered)
      (DetectorPort.powered_start storedEnable storedOccupancy)
      (fun _ _ _ _ h hstep => powered_step h hstep) hrun).safe
  · by_contra hlarge
    obtain ⟨s, hrun, htrying, hcheck⟩ := lasting_tries opts storedEnable storedOccupancy
      (Nat.le_of_not_lt hlarge) (opts.turnonRetryCount.toNat + 2)
    have hle : s.turnons ≤ opts.turnonRetryCount.toNat + 1 := h _ (fun past input future t u heq hpast hstep => by
      simpa using Trace.eachStep_of_check hcheck past input future t u heq hpast hstep)
      _ [] s (List.append_nil _).symm hrun
    rw [htrying.turnons] at hle
    omega
  · have hbounded : Trace.Always (step opts) (fun _ s =>
        Bounded opts s.turnons s.port.turnonTryCount s.port.flow.state)
        (start storedEnable storedOccupancy) history :=
      Trace.always (Nat.zero_le (opts.turnonRetryCount.toNat + 1))
        (fun _ _ _ _ _ h hno hstep => bounded_step hcount h hno hstep) hrestarts
    exact fun past future s heq hrun => (hbounded past future s heq hrun).le

/-- Eight fast retries, and a short that lasts: the output is switched on for the tenth time. -/
theorem eightRetries_unbounded : ¬ ∀ opts storedEnable storedOccupancy history,
    Trace.Always (step opts) (fun _ s => s.turnons ≤ opts.turnonRetryCount.toNat + 1)
      (start storedEnable storedOccupancy) history := by
  intro h
  obtain ⟨s, hrun, htrying, -⟩ := lasting_tries ⟨8⟩ true false (by decide) 10
  have hle : s.turnons ≤ 9 := h ⟨8⟩ true false _ _ [] s (List.append_nil _).symm hrun
  rw [htrying.turnons] at hle
  exact absurd hle (by decide)

end CountedPort

end OpenmrnCue.Custom
