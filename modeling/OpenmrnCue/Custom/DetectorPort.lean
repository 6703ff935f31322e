import OpenmrnCue.Library.StateFlow
import OpenmrnCue.Library.Trace
import Mathlib.Algebra.Order.Ring.Int

/-! `DetectorPort` of `DetectorPort.hxx`: one output of a block detector, which turns the track on,
retries after a short, and reports the occupancy of the block.  Its setters are called from outside
at any time between two states of the flow.  How long the timer runs plays no part. -/

namespace OpenmrnCue.Custom

open StateFlow

/-- The states of the flow. -/
inductive DetectorState where
  | initStart
  | initWait
  | initTryTurnon
  | tryTurnon
  | waitForDccToTurnOn
  | evalTurnon
  | setNetworkOff
  | networkOff
  | produceShorted
  | produceNotShorted
  | shortWaitForRetry
  | evalNormalState
  | delayNormal
  | produceOccupancy
  | sensorDebounceDone
deriving DecidableEq, Repr

/-- The events that the port sends. -/
inductive DetectorEvent where
  | occupancyOn
  | occupancyOff
  | overcurrentOn
  | overcurrentOff
deriving DecidableEq, Repr

/-- `DetectorOptions`, without the delays. -/
structure DetectorOptions where
  turnonRetryCount : UInt8

/-- `DetectorPort`, with its timer, the event sends that are not completed, the stored bits of the
port, whether the options are loaded, and the events sent. -/
structure DetectorPort where
  flow : Flow DetectorState
  timer : Bool
  sends : Nat
  isInitialized : Bool
  storedEnable : Bool
  storedOccupancy : Bool
  killedOutputDueToOvercurrent : Bool
  lostDccSignal : Bool
  sensedOccupancy : Bool
  networkOvercurrent : Bool
  networkOccupancy : Bool
  /-- What the output pin is set to. -/
  commandedEnable : Bool
  networkEnable : Bool
  networkOccupancyKnown : Bool
  networkOvercurrentKnown : Bool
  seenOccupancyOn : Bool
  seenOccupancyOff : Bool
  isWaitingForLoop : Bool
  turnonTryCount : Nat
  events : List DetectorEvent
deriving DecidableEq, Repr

/-- What can happen to a port. -/
inductive DetectorInput where
  | setOvercurrent (value : Bool)
  | setHaveDccSignal (haveSignal : Bool)
  | setOccupancy (value : Bool)
  | setNetworkOccupancy (value : Bool)
  | setNetworkOvercurrent (value : Bool)
  | setNetworkEnable (value : Bool)
  | optionsLoaded
  | timerExpired
  | sent
  | flow
deriving DecidableEq, Repr

namespace DetectorPort

/-- The port after construction. -/
def start (storedEnable storedOccupancy : Bool) : DetectorPort where
  flow := .start .initStart
  timer := false
  sends := 0
  isInitialized := false
  storedEnable := storedEnable
  storedOccupancy := storedOccupancy
  killedOutputDueToOvercurrent := false
  lostDccSignal := true
  sensedOccupancy := false
  networkOvercurrent := false
  networkOccupancy := false
  commandedEnable := false
  networkEnable := false
  networkOccupancyKnown := false
  networkOvercurrentKnown := false
  seenOccupancyOn := false
  seenOccupancyOff := false
  isWaitingForLoop := false
  turnonTryCount := 0
  events := []

/-- `notify`. -/
def notify (s : DetectorPort) : DetectorPort := { s with flow := s.flow.notify }

/-- `set_output_enable`. -/
def setOutputEnable (s : DetectorPort) (value : Bool) : DetectorPort :=
  { s with
    commandedEnable := value
    killedOutputDueToOvercurrent := if value then false else s.killedOutputDueToOvercurrent }

/-- `wakeup_normal_state`. -/
def wakeupNormalState (s : DetectorPort) : DetectorPort :=
  if s.isWaitingForLoop then { s with isWaitingForLoop := false }.notify else s

/-- `set_overcurrent`. -/
def setOvercurrent (s : DetectorPort) (value : Bool) : DetectorPort :=
  if value then
    { s.setOutputEnable false with killedOutputDueToOvercurrent := true }.wakeupNormalState
  else s

/-- `set_haveSignaldcc_signal`. -/
def setHaveDccSignal (s : DetectorPort) (haveSignal : Bool) : DetectorPort :=
  { s with lostDccSignal := !haveSignal }

/-- `set_occupancy`. -/
def setOccupancy (s : DetectorPort) (value : Bool) : DetectorPort :=
  let s := { s with sensedOccupancy := value }
  let s := if value then { s with seenOccupancyOn := true } else { s with seenOccupancyOff := true }
  s.wakeupNormalState

/-- `set_network_occupancy`. -/
def setNetworkOccupancy (s : DetectorPort) (value : Bool) : DetectorPort :=
  let s := { s with networkOccupancy := value }
  let s := if s.networkOccupancy = s.sensedOccupancy then
    { s with storedOccupancy := s.sensedOccupancy } else s
  s.wakeupNormalState

/-- `set_network_overcurrent`. -/
def setNetworkOvercurrent (s : DetectorPort) (value : Bool) : DetectorPort :=
  { s with networkOvercurrent := value }.wakeupNormalState

/-- `set_network_enable`. -/
def setNetworkEnable (s : DetectorPort) (value : Bool) : DetectorPort :=
  let s := { s with networkEnable := value, storedEnable := value }
  let s := if s.networkEnable && s.flow.state = .networkOff then s.notify else s
  let s := if !value then s.setOutputEnable false else s
  s.wakeupNormalState

/-- What a state does to the port, and the action that it returns. -/
abbrev Result := DetectorPort × Action DetectorState

/-- `sleep_and_call`. -/
def sleepAndCall (s : DetectorPort) (next : DetectorState) : Result :=
  ({ s with timer := true }, .waitAndCall next)

/-- `produce_event`. -/
def produceEvent (s : DetectorPort) (event : DetectorEvent) (next : DetectorState) : Result :=
  ({ s with events := s.events ++ [event], sends := s.sends + 1 }, .waitAndCall next)

/-- `++turnonTryCount_`, a field of three bits. -/
def countTry (s : DetectorPort) : DetectorPort :=
  { s with turnonTryCount := (s.turnonTryCount + 1) % 2 ^ 3 }

/-- `init_start`. -/
def initStart (s : DetectorPort) : Result :=
  ({ s with
    networkEnable := s.storedEnable
    networkOccupancy := s.storedOccupancy
    networkOccupancyKnown := true }, .callImmediately .initWait)

/-- `init_wait`. -/
def initWait (s : DetectorPort) : Result :=
  if !s.isInitialized then s.sleepAndCall .initWait
  else if s.lostDccSignal then s.sleepAndCall .initWait
  else if !s.networkEnable then (s.setOutputEnable false, .callImmediately .setNetworkOff)
  else s.sleepAndCall .initTryTurnon

/-- `init_try_turnon`. -/
def initTryTurnon (s : DetectorPort) : Result :=
  ({ s with turnonTryCount := 0 }, .callImmediately .tryTurnon)

/-- `try_turnon`. -/
def tryTurnon (s : DetectorPort) : Result :=
  if !s.networkEnable then (s, .callImmediately .setNetworkOff)
  else if s.lostDccSignal then (s, .callImmediately .waitForDccToTurnOn)
  else (s.setOutputEnable true).sleepAndCall .evalTurnon

/-- `wait_for_dcc_to_turn_on`. -/
def waitForDccToTurnOn (opts : DetectorOptions) (s : DetectorPort) : Result :=
  if !s.lostDccSignal then (s, .callImmediately .initTryTurnon)
  else if s.turnonTryCount < opts.turnonRetryCount.toNat then
    s.countTry.sleepAndCall .waitForDccToTurnOn
  else if s.killedOutputDueToOvercurrent then (s, .callImmediately .produceShorted)
  else (s, .callImmediately .initWait)

/-- `eval_turnon`. -/
def evalTurnon (opts : DetectorOptions) (s : DetectorPort) : Result :=
  if !s.networkEnable then (s, .callImmediately .setNetworkOff)
  else if s.killedOutputDueToOvercurrent then
    if s.turnonTryCount < opts.turnonRetryCount.toNat && !s.lostDccSignal then
      (s.countTry, .callImmediately .tryTurnon)
    else (s, .callImmediately .produceShorted)
  else (s, .callImmediately .produceNotShorted)

/-- `set_network_off`. -/
def setNetworkOff (s : DetectorPort) : Result := (s.setOutputEnable false, .waitAndCall .networkOff)

/-- `network_off`. -/
def networkOff (s : DetectorPort) : Result :=
  if !s.networkEnable then (s, .wait) else (s, .callImmediately .initTryTurnon)

/-- `produce_shorted`. -/
def produceShorted (s : DetectorPort) : Result :=
  if !s.networkOvercurrent || !s.networkOvercurrentKnown then
    { s with networkOvercurrent := true, networkOvercurrentKnown := true }.produceEvent
      .overcurrentOn .shortWaitForRetry
  else (s, .callImmediately .shortWaitForRetry)

/-- `produce_not_shorted`. -/
def produceNotShorted (s : DetectorPort) : Result :=
  if s.networkOvercurrent || !s.networkOvercurrentKnown then
    { s with networkOvercurrent := false, networkOvercurrentKnown := true }.produceEvent
      .overcurrentOff .evalNormalState
  else (s, .callImmediately .evalNormalState)

/-- `short_wait_for_retry`. -/
def shortWaitForRetry (s : DetectorPort) : Result := s.sleepAndCall .tryTurnon

/-- The retry of a port that is on and has been shorted. -/
def retryShorted (s : DetectorPort) : Result :=
  { s with turnonTryCount := 1 }.sleepAndCall .tryTurnon

/-- `eval_normal_state`. -/
def evalNormalState (s : DetectorPort) : Result :=
  if s.killedOutputDueToOvercurrent then s.retryShorted
  else if !s.networkEnable then (s, .callImmediately .setNetworkOff)
  else if !s.networkOccupancyKnown then (s, .callImmediately .produceOccupancy)
  else if s.networkOccupancy ≠ s.sensedOccupancy then
    let s := { s with seenOccupancyOff := false, seenOccupancyOn := false }
    if s.sensedOccupancy then (s, .callImmediately .produceOccupancy)
    else s.sleepAndCall .sensorDebounceDone
  else ({ s with isWaitingForLoop := true }, .waitAndCall .delayNormal)

/-- `delay_normal`. -/
def delayNormal (s : DetectorPort) : Result :=
  ({ s with isWaitingForLoop := false }, .callImmediately .evalNormalState)

/-- `produce_occupancy`. -/
def produceOccupancy (s : DetectorPort) : Result :=
  { s with
    networkOccupancyKnown := true
    networkOccupancy := s.sensedOccupancy
    storedOccupancy := s.sensedOccupancy }.produceEvent
      (if s.sensedOccupancy then .occupancyOn else .occupancyOff) .evalNormalState

/-- `sensor_debounce_done`. -/
def sensorDebounceDone (s : DetectorPort) : Result :=
  if s.killedOutputDueToOvercurrent then s.retryShorted
  else if !s.networkEnable then (s, .callImmediately .setNetworkOff)
  else if s.seenOccupancyOn then (s, .callImmediately .evalNormalState)
  else (s, .callImmediately .produceOccupancy)

/-- The flow runs its current state. -/
def runState (opts : DetectorOptions) (s : DetectorPort) : Result :=
  match s.flow.state with
  | .initStart => s.initStart
  | .initWait => s.initWait
  | .initTryTurnon => s.initTryTurnon
  | .tryTurnon => s.tryTurnon
  | .waitForDccToTurnOn => s.waitForDccToTurnOn opts
  | .evalTurnon => s.evalTurnon opts
  | .setNetworkOff => s.setNetworkOff
  | .networkOff => s.networkOff
  | .produceShorted => s.produceShorted
  | .produceNotShorted => s.produceNotShorted
  | .shortWaitForRetry => s.shortWaitForRetry
  | .evalNormalState => s.evalNormalState
  | .delayNormal => s.delayNormal
  | .produceOccupancy => s.produceOccupancy
  | .sensorDebounceDone => s.sensorDebounceDone

/-- The port after a state has returned. -/
def finish (result : Result) : DetectorPort :=
  { result.1 with flow := result.1.flow.finish result.2 }

/-- One step of the port or of what is around it. -/
def step (opts : DetectorOptions) (s : DetectorPort) : DetectorInput → Option DetectorPort
  | .setOvercurrent value => some (s.setOvercurrent value)
  | .setHaveDccSignal haveSignal => some (s.setHaveDccSignal haveSignal)
  | .setOccupancy value => some (s.setOccupancy value)
  | .setNetworkOccupancy value => some (s.setNetworkOccupancy value)
  | .setNetworkOvercurrent value => some (s.setNetworkOvercurrent value)
  | .setNetworkEnable value => some (s.setNetworkEnable value)
  | .optionsLoaded => some { s with isInitialized := true }
  | .timerExpired => if s.timer then some { s with timer := false }.notify else none
  | .sent => if s.sends = 0 then none else some { s with sends := s.sends - 1 }.notify
  | .flow => s.flow.dispatch.map fun flow => finish ({ s with flow }.runState opts)

end DetectorPort

end OpenmrnCue.Custom
