import OpenmrnCue.Custom.DetectorPort

/-! A detector port at rest.  The flow rests when it waits for a call from outside only: in its
normal state, or turned off by the network.  A port that rests is on exactly if the network wants it
on, unless the network turned it off and on again at a time when the flow does not notice. -/

namespace OpenmrnCue.Custom

open StateFlow

/-- The states in which the output has been turned on. -/
def DetectorState.isOn : DetectorState → Bool
  | .evalTurnon | .produceNotShorted | .evalNormalState | .delayNormal | .produceOccupancy
  | .sensorDebounceDone => true
  | _ => false

namespace DetectorPort

/-- The flow waits for a call from outside only. -/
def Rests (s : DetectorPort) : Prop :=
  s.isWaitingForLoop = true ∨ (s.flow.state = .networkOff ∧ s.flow.parked = true)

/-- What a port that rests shows. -/
def RestsWell (s : DetectorPort) : Prop :=
  s.Rests → s.commandedEnable = s.networkEnable ∧
    (s.isWaitingForLoop = true → s.killedOutputDueToOvercurrent = false ∧
      s.networkOccupancy = s.sensedOccupancy)

/-- The network turns the port on while the flow is about to park it, or after the network has
turned off an output that the flow believes to be on. -/
def missesEnable (s : DetectorPort) : DetectorInput → Bool
  | .setNetworkEnable true => s.flow.state = .setNetworkOff ||
      (s.flow.state.isOn && !s.networkEnable && !s.killedOutputDueToOvercurrent)
  | _ => false

/-- The invariant of the runs in which no enable is missed. -/
structure Noticing (s : DetectorPort) : Prop where
  on : s.flow.state.isOn = true → s.commandedEnable = false →
    s.networkEnable = false ∨ s.killedOutputDueToOvercurrent = true
  parking : s.flow.state = .setNetworkOff → s.networkEnable = false
  off : s.flow.state = .networkOff → s.commandedEnable = false
  parked : s.flow.state = .networkOff → s.flow.parked = true → s.networkEnable = false
  waits : s.isWaitingForLoop = true → s.flow.state = .delayNormal ∧ s.flow.running = false ∧
    s.networkEnable = true ∧ s.killedOutputDueToOvercurrent = false ∧
    s.networkOccupancy = s.sensedOccupancy

theorem noticing_start (storedEnable storedOccupancy : Bool) :
    (start storedEnable storedOccupancy).Noticing :=
  ⟨nofun, nofun, nofun, nofun, nofun⟩

theorem Noticing.restsWell {s : DetectorPort} (h : s.Noticing) : s.RestsWell := by
  rintro (hwaits | ⟨hoff, hparked⟩)
  · obtain ⟨hstate, -, henable, hkilled, hoccupancy⟩ := h.waits hwaits
    refine ⟨?_, fun _ => ⟨hkilled, hoccupancy⟩⟩
    by_contra hne
    have hdark : s.commandedEnable = false := by
      rw [henable] at hne
      simpa using hne
    rcases h.on (by rw [hstate]; rfl) hdark with hno | hno
    · rw [henable] at hno
      cases hno
    · rw [hkilled] at hno
      cases hno
  · refine ⟨(h.off hoff).trans (h.parked hoff hparked).symm, fun hwaits => ?_⟩
    have hdelay := (h.waits hwaits).1
    rw [hoff] at hdelay
    cases hdelay

variable {s s' : DetectorPort} {opts : DetectorOptions}

/-! The kinds of states to which the flow goes. -/

theorem noticing_elsewhere (hon : s.flow.state.isOn = false) (hparking : s.flow.state ≠ .setNetworkOff)
    (hoff : s.flow.state ≠ .networkOff) (hwaits : s.isWaitingForLoop = false) : s.Noticing :=
  ⟨fun h => absurd (hon.symm.trans h) (by decide), fun h => absurd h hparking, fun h => absurd h hoff,
    fun h => absurd h hoff, fun h => absurd (hwaits.symm.trans h) (by decide)⟩

theorem noticing_on (hstate : s.flow.state.isOn = true)
    (hon : s.commandedEnable = false →
      s.networkEnable = false ∨ s.killedOutputDueToOvercurrent = true)
    (hwaits : s.isWaitingForLoop = false) : s.Noticing := by
  refine ⟨fun _ => hon, fun h => ?_, fun h => ?_, fun h => ?_,
    fun h => absurd (hwaits.symm.trans h) (by decide)⟩ <;>
  · rw [h] at hstate
    cases hstate

theorem noticing_parking (hstate : s.flow.state = .setNetworkOff) (henable : s.networkEnable = false)
    (hwaits : s.isWaitingForLoop = false) : s.Noticing := by
  refine ⟨fun h => ?_, fun _ => henable, fun h => ?_, fun h => ?_,
    fun h => absurd (hwaits.symm.trans h) (by decide)⟩ <;>
  · rw [hstate] at h
    cases h

theorem noticing_off (hstate : s.flow.state = .networkOff) (hdark : s.commandedEnable = false)
    (henable : s.flow.parked = true → s.networkEnable = false) (hwaits : s.isWaitingForLoop = false) :
    s.Noticing := by
  refine ⟨fun h => ?_, fun h => ?_, fun _ => hdark, fun _ => henable,
    fun h => absurd (hwaits.symm.trans h) (by decide)⟩ <;>
  · rw [hstate] at h
    cases h

/-- What the invariant says of the port when one of its states runs. -/
theorem Noticing.runState (hon : s.flow.state.isOn = true →
      s.commandedEnable = false → s.networkEnable = false ∨ s.killedOutputDueToOvercurrent = true)
    (hparking : s.flow.state = .setNetworkOff → s.networkEnable = false)
    (hoff : s.flow.state = .networkOff → s.commandedEnable = false)
    (hwaits : s.isWaitingForLoop = true → s.flow.state = .delayNormal) :
    (finish (s.runState opts)).Noticing := by
  have hquiet : s.flow.state ≠ .delayNormal → s.isWaitingForLoop = false := fun h => by
    by_contra hwait
    exact h (hwaits (by simpa using hwait))
  -- A state in which the output is on, and which goes to another one.
  have hstays : ∀ {t : DetectorPort}, s.flow.state.isOn = true → t.commandedEnable = s.commandedEnable →
      t.networkEnable = s.networkEnable →
      t.killedOutputDueToOvercurrent = s.killedOutputDueToOvercurrent →
      t.flow.state.isOn = true → t.isWaitingForLoop = false → t.Noticing := by
    intro t hstate hcommanded henable hkilled hnext hwait
    refine noticing_on hnext (fun hdark => ?_) hwait
    rw [henable, hkilled]
    exact hon hstate (hcommanded.symm.trans hdark)
  unfold DetectorPort.runState
  cases hstate : s.flow.state <;> simp only
  case initStart => exact noticing_elsewhere rfl nofun nofun (hquiet (by simp [hstate]))
  case initWait =>
    have hwait := hquiet (by simp [hstate])
    unfold initWait
    split_ifs with _ _ henable
    · exact noticing_elsewhere rfl nofun nofun hwait
    · exact noticing_elsewhere rfl nofun nofun hwait
    · exact noticing_parking rfl (by simpa [finish, setOutputEnable] using henable) hwait
    · exact noticing_elsewhere rfl nofun nofun hwait
  case initTryTurnon => exact noticing_elsewhere rfl nofun nofun (hquiet (by simp [hstate]))
  case tryTurnon =>
    have hwait := hquiet (by simp [hstate])
    unfold tryTurnon
    split_ifs with henable
    · exact noticing_parking rfl (by simpa [finish, setOutputEnable] using henable) hwait
    · exact noticing_elsewhere rfl nofun nofun hwait
    · exact noticing_on rfl nofun hwait
  case waitForDccToTurnOn =>
    have hwait := hquiet (by simp [hstate])
    unfold waitForDccToTurnOn
    split_ifs <;> exact noticing_elsewhere rfl nofun nofun hwait
  case evalTurnon =>
    have hwait := hquiet (by simp [hstate])
    have hison : s.flow.state.isOn = true := by simp [hstate, DetectorState.isOn]
    unfold evalTurnon
    split_ifs with henable
    · exact noticing_parking rfl (by simpa [finish, setOutputEnable] using henable) hwait
    · exact noticing_elsewhere rfl nofun nofun hwait
    · exact noticing_elsewhere rfl nofun nofun hwait
    · exact hstays hison rfl rfl rfl rfl hwait
  case setNetworkOff =>
    exact noticing_off rfl rfl (fun _ => hparking hstate) (hquiet (by simp [hstate]))
  case networkOff =>
    have hwait := hquiet (by simp [hstate])
    unfold networkOff
    split_ifs with henable
    · exact noticing_off hstate (hoff hstate) (fun _ => by simpa [finish] using henable) hwait
    · exact noticing_elsewhere rfl nofun nofun hwait
  case produceShorted =>
    have hwait := hquiet (by simp [hstate])
    unfold produceShorted
    split_ifs <;> exact noticing_elsewhere rfl nofun nofun hwait
  case produceNotShorted =>
    have hwait := hquiet (by simp [hstate])
    have hison : s.flow.state.isOn = true := by simp [hstate, DetectorState.isOn]
    unfold produceNotShorted
    split_ifs <;> exact hstays hison rfl rfl rfl rfl hwait
  case shortWaitForRetry => exact noticing_elsewhere rfl nofun nofun (hquiet (by simp [hstate]))
  case evalNormalState =>
    have hwait := hquiet (by simp [hstate])
    have hison : s.flow.state.isOn = true := by simp [hstate, DetectorState.isOn]
    unfold evalNormalState
    simp only
    split_ifs with hkilled henable hknown hoccupancy
    · exact noticing_elsewhere rfl nofun nofun hwait
    · exact noticing_parking rfl (by simpa [finish, setOutputEnable] using henable) hwait
    · exact hstays hison rfl rfl rfl rfl hwait
    · exact hstays hison rfl rfl rfl rfl hwait
    · exact hstays hison rfl rfl rfl rfl hwait
    · -- The flow goes to rest: it has checked the flags in this very state.
      refine ⟨fun _ => hon hison, nofun, nofun, nofun, fun _ => ⟨rfl, rfl, ?_, ?_, ?_⟩⟩
      · simpa [finish] using henable
      · simpa [finish] using hkilled
      · simpa [finish] using hoccupancy
  case delayNormal =>
    exact hstays (by simp [hstate, DetectorState.isOn]) rfl rfl rfl rfl rfl
  case produceOccupancy =>
    exact hstays (by simp [hstate, DetectorState.isOn]) rfl rfl rfl rfl (hquiet (by simp [hstate]))
  case sensorDebounceDone =>
    have hwait := hquiet (by simp [hstate])
    have hison : s.flow.state.isOn = true := by simp [hstate, DetectorState.isOn]
    unfold sensorDebounceDone
    split_ifs with _ henable
    · exact noticing_elsewhere rfl nofun nofun hwait
    · exact noticing_parking rfl (by simpa [finish, setOutputEnable] using henable) hwait
    · exact hstays hison rfl rfl rfl rfl hwait
    · exact hstays hison rfl rfl rfl rfl hwait

theorem Noticing.flow (h : s.Noticing) {flow : Flow DetectorState}
    (hdispatch : s.flow.dispatch = some flow) :
    (finish ({ s with flow }.runState opts)).Noticing := by
  obtain ⟨hsame, -⟩ := Flow.dispatch_eq_some hdispatch
  refine Noticing.runState ?_ ?_ ?_ ?_ <;> simp only [hsame]
  · exact h.on
  · exact h.parking
  · exact h.off
  · exact fun hwait => (h.waits hwait).1

/-- A notification of the flow. -/
theorem Noticing.notify (h : s.Noticing) : s.notify.Noticing :=
  ⟨h.on, h.parking, h.off, fun _ hparked => by simp [DetectorPort.notify] at hparked, h.waits⟩

/-- A call from outside wakes the flow up, so that the flow checks the flags again. -/
theorem noticing_wakeup (hon : s.flow.state.isOn = true → s.commandedEnable = false →
      s.networkEnable = false ∨ s.killedOutputDueToOvercurrent = true)
    (hparking : s.flow.state = .setNetworkOff → s.networkEnable = false)
    (hoff : s.flow.state = .networkOff → s.commandedEnable = false)
    (hparked : s.flow.state = .networkOff → s.flow.parked = true → s.networkEnable = false) :
    s.wakeupNormalState.Noticing := by
  unfold wakeupNormalState
  split_ifs with hwait
  · exact ⟨hon, hparking, hoff, fun _ h => by simp [DetectorPort.notify] at h, nofun⟩
  · exact ⟨hon, hparking, hoff, hparked, fun h => absurd h hwait⟩

theorem Noticing.setOvercurrent (h : s.Noticing) (value : Bool) :
    (s.setOvercurrent value).Noticing := by
  unfold DetectorPort.setOvercurrent
  split_ifs
  · exact noticing_wakeup (fun _ _ => Or.inr rfl) h.parking (fun _ => rfl) h.parked
  · exact h

theorem Noticing.setNetworkEnable (h : s.Noticing) {value : Bool}
    (hmisses : s.missesEnable (.setNetworkEnable value) = false) :
    (s.setNetworkEnable value).Noticing := by
  unfold DetectorPort.setNetworkEnable
  cases value with
  | false =>
    simp only [Bool.false_and, Bool.false_eq_true, if_false, Bool.not_false, if_true]
    exact noticing_wakeup (fun _ _ => Or.inl rfl) (fun _ => rfl) (fun _ => rfl) fun _ _ => rfl
  | true =>
    simp only [missesEnable, Bool.or_eq_false_iff, decide_eq_false_iff_not] at hmisses
    obtain ⟨hparking, hlost⟩ := hmisses
    have hon : s.flow.state.isOn = true → s.commandedEnable = false →
        true = false ∨ s.killedOutputDueToOvercurrent = true := by
      intro hstate hdark
      refine Or.inr ((h.on hstate hdark).elim (fun henable => ?_) id)
      simpa [hstate, henable] using hlost
    simp only [Bool.true_and, decide_eq_true_eq, Bool.not_true, Bool.false_eq_true, if_false]
    split_ifs with hoff
    · exact noticing_wakeup hon (fun hstate => absurd hstate hparking) h.off
        fun _ hparked => by simp [DetectorPort.notify] at hparked
    · exact noticing_wakeup hon (fun hstate => absurd hstate hparking) h.off
        fun hstate => absurd hstate hoff

theorem Noticing.step (h : s.Noticing) {input : DetectorInput} (hmisses : s.missesEnable input = false)
    (hstep : s.step opts input = some s') : s'.Noticing := by
  cases input with
  | setOvercurrent value =>
    cases hstep
    exact h.setOvercurrent value
  | setHaveDccSignal haveSignal =>
    cases hstep
    exact ⟨h.on, h.parking, h.off, h.parked, h.waits⟩
  | setOccupancy value =>
    cases hstep
    unfold DetectorPort.setOccupancy
    cases value <;> exact noticing_wakeup h.on h.parking h.off h.parked
  | setNetworkOccupancy value =>
    cases hstep
    unfold DetectorPort.setNetworkOccupancy
    simp only
    split_ifs <;> exact noticing_wakeup h.on h.parking h.off h.parked
  | setNetworkOvercurrent value =>
    cases hstep
    exact noticing_wakeup h.on h.parking h.off h.parked
  | setNetworkEnable value =>
    cases hstep
    exact h.setNetworkEnable hmisses
  | optionsLoaded =>
    cases hstep
    exact ⟨h.on, h.parking, h.off, h.parked, h.waits⟩
  | timerExpired =>
    simp only [DetectorPort.step, Option.ite_none_right_eq_some, Option.some.injEq] at hstep
    obtain ⟨-, rfl⟩ := hstep
    exact Noticing.notify ⟨h.on, h.parking, h.off, h.parked, h.waits⟩
  | sent =>
    simp only [DetectorPort.step, Option.ite_none_left_eq_some, Option.some.injEq] at hstep
    obtain ⟨-, rfl⟩ := hstep
    exact Noticing.notify ⟨h.on, h.parking, h.off, h.parked, h.waits⟩
  | flow =>
    obtain ⟨flow, hdispatch, rfl⟩ := Option.map_eq_some_iff.mp hstep
    exact h.flow hdispatch

/-- In a run in which the network does not turn the port on while the flow is about to park it, nor
after it has turned the port off in a state in which the flow takes the output to be on, a port that
rests is on exactly if the network wants it on, and in its normal state it is not shorted and has
told the network of its occupancy. -/
theorem restsWell_of_noticed (opts : DetectorOptions) (storedEnable storedOccupancy : Bool)
    (history : List DetectorInput)
    (hnoticed : Trace.EachStep (DetectorPort.step opts)
      (fun _ s input _ => s.missesEnable input = false) (start storedEnable storedOccupancy) history) :
    Trace.Always (DetectorPort.step opts) (fun _ s => s.RestsWell)
      (start storedEnable storedOccupancy) history := by
  have hnoticing : Trace.Always (DetectorPort.step opts) (fun _ s => s.Noticing)
      (start storedEnable storedOccupancy) history :=
    Trace.always (noticing_start storedEnable storedOccupancy)
      (fun _ _ _ _ _ h hno hstep => h.step hno hstep) hnoticed
  exact fun past future s heq hrun => (hnoticing past future s heq hrun).restsWell

/-- Three fast retries. -/
def threeRetries : DetectorOptions := ⟨3⟩

/-- The port, stored as on and free, is turned on. -/
def turnOn : List DetectorInput :=
  [.optionsLoaded, .setHaveDccSignal true, .flow, .flow, .timerExpired, .flow, .flow]

/-- The port goes to its normal state from there. -/
def toNormal : List DetectorInput := [.timerExpired, .flow, .flow, .sent, .flow]

theorem restsWell_turnOff : Trace.Always (DetectorPort.step threeRetries) (fun _ s => s.RestsWell)
    (start true false)
    (turnOn ++ toNormal ++ [.setNetworkEnable false, .flow, .flow, .flow, .setNetworkEnable true]) :=
  restsWell_of_noticed threeRetries true false _
    (fun past input future s s' heq hrun hstep => by
      have hall : Trace.check (DetectorPort.step threeRetries) (fun s input => !s.missesEnable input)
          (start true false) (turnOn ++ toNormal ++
            [.setNetworkEnable false, .flow, .flow, .flow, .setNetworkEnable true]) = true := by
        decide
      have hcheck := Trace.eachStep_of_check hall
      simpa using hcheck past input future s s' heq hrun hstep)

/-- The network turns the port off and on again while the flow waits to evaluate the turn-on: the
port rests in its normal state with the output off. -/
theorem enable_missed : ¬ ∀ opts storedEnable storedOccupancy history,
    Trace.Always (DetectorPort.step opts) (fun _ s => s.RestsWell)
      (start storedEnable storedOccupancy) history := by
  intro h
  have hrun : (Trace.run (DetectorPort.step threeRetries) (start true false)
      (turnOn ++ [.setNetworkEnable false, .setNetworkEnable true] ++ toNormal)).map
        (fun s => (s.isWaitingForLoop, s.commandedEnable, s.networkEnable)) =
      some (true, false, true) := by decide
  obtain ⟨s, hs, hfields⟩ := Option.map_eq_some_iff.mp hrun
  simp only [Prod.mk.injEq] at hfields
  have heq := (h threeRetries true false _ _ [] s (List.append_nil _).symm hs (Or.inl hfields.1)).1
  rw [hfields.2.1, hfields.2.2] at heq
  cases heq

end DetectorPort

end OpenmrnCue.Custom
