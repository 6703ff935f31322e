import OpenmrnCue.Library.Trace

/-! Track power and emergency stop: `TrackPowerState` of `TrackPowerBit.hxx` together with the
packet loop that polls its e-stop packet source.  Two event pairs, track power and global emergency
stop, share the packet source, its countdown and the callback stored in it. -/

namespace OpenmrnCue.CommandStation

/-- The callbacks that `register_source` can be given. -/
inductive Done where
  | estopExpired
deriving DecidableEq, Repr

/-- The two packets of `EstopPacketSource::get_next_packet`: a DCC speed packet and a Marklin speed
packet, both broadcast and both with the speed `EMERGENCY_STOP`. -/
inductive EstopPacket where
  | dccSpeed14
  | mmSpeed
deriving DecidableEq, Repr

/-- `EstopPacketSource`.  `numToNotify` has six bits and the constructor leaves it as it is. -/
structure EstopPacketSource where
  isRegistered : Bool
  isEOff : Bool
  isEStop : Bool
  nextDcc : Bool
  numToNotify : Nat
  done : Option Done
deriving DecidableEq, Repr

/-- `TrackPowerState` with what it acts on: whether the packet loop holds the e-stop source, and
whether the two outputs are disabled for the reason `GLOBAL_EOFF`. -/
structure TrackPowerState where
  estopSource : EstopPacketSource
  inLoop : Bool
  trackDisabled : Bool
  lccDisabled : Bool
deriving DecidableEq, Repr

namespace TrackPowerState

/-- The state after construction, where `numToNotify` holds whatever the memory held. -/
def start (numToNotify : Fin 64) : TrackPowerState where
  estopSource :=
    { isRegistered := false, isEOff := false, isEStop := false, nextDcc := true,
      numToNotify := numToNotify, done := none }
  inLoop := false
  trackDisabled := false
  lccDisabled := false

/-- Calls the callback: `TrackPowerBit::estop_expired`. -/
def call (s : TrackPowerState) : Done → TrackPowerState
  | .estopExpired => { s with trackDisabled := true, lccDisabled := true }

/-- `EstopPacketSource::start`. -/
def startCounting (s : TrackPowerState) (done : Done) : TrackPowerState :=
  { s with
    estopSource := { s.estopSource with nextDcc := true, numToNotify := 20, done := some done } }

/-- `register_source`; `loopExists` is `dcc::UpdateLoopBase::exists()`. -/
def registerSource (loopExists : Bool) (s : TrackPowerState) (done : Option Done) :
    TrackPowerState :=
  if !loopExists then
    match done with
    | some done => s.call done
    | none => s
  else
    let s :=
      if !s.estopSource.isRegistered then
        { s with estopSource := { s.estopSource with isRegistered := true }, inLoop := true }
      else s
    match done with
    | some done => s.startCounting done
    | none => s

/-- `unregister_source`. -/
def unregisterSource (loopExists : Bool) (s : TrackPowerState) : TrackPowerState :=
  if !s.estopSource.isRegistered then s
  else if !loopExists then s
  else if !s.estopSource.isEOff && !s.estopSource.isEStop then
    { s with inLoop := false, estopSource := { s.estopSource with isRegistered := false } }
  else s

/-- `EstopPacketSource::get_next_packet`: the packet and the state after it. -/
def getNextPacket (s : TrackPowerState) : EstopPacket × TrackPowerState :=
  let packet := if s.estopSource.nextDcc then .dccSpeed14 else .mmSpeed
  let s := { s with estopSource := { s.estopSource with nextDcc := !s.estopSource.nextDcc } }
  if s.estopSource.numToNotify = 0 then (packet, s)
  else
    let s := { s with
      estopSource := { s.estopSource with numToNotify := s.estopSource.numToNotify - 1 } }
    if s.estopSource.numToNotify = 0 then
      match s.estopSource.done with
      | some done =>
        let s := s.call done
        (packet, { s with estopSource := { s.estopSource with done := none } })
      | none => (packet, s)
    else (packet, s)

/-- `TrackPowerBit::set_state`. -/
def setPower (loopExists : Bool) (s : TrackPowerState) (newValue : Bool) : TrackPowerState :=
  if newValue then
    let s := { s with estopSource := { s.estopSource with isEOff := false } }
    let s := s.unregisterSource loopExists
    { s with trackDisabled := false, lccDisabled := false }
  else
    let s := { s with estopSource := { s.estopSource with isEOff := true } }
    s.registerSource loopExists (some .estopExpired)

/-- `GlobalStopBit::set_state`. -/
def setStop (loopExists : Bool) (s : TrackPowerState) (newValue : Bool) : TrackPowerState :=
  if newValue then
    let s := { s with estopSource := { s.estopSource with isEStop := false } }
    s.unregisterSource loopExists
  else
    let s := { s with estopSource := { s.estopSource with isEStop := true } }
    s.registerSource loopExists none

end TrackPowerState

/-- What can happen: one of the four events, or the packet loop asks for a packet. -/
inductive PowerInput where
  | powerOn
  | powerOff
  | estop
  | estopClear
  | poll
deriving DecidableEq, Repr

open PowerInput

/-- One step with a packet loop that exists.  The loop polls the source only while it holds it. -/
def TrackPowerState.step (s : TrackPowerState) : PowerInput → Option TrackPowerState
  | powerOn => some (s.setPower true true)
  | powerOff => some (s.setPower true false)
  | estop => some (s.setStop true false)
  | estopClear => some (s.setStop true true)
  | poll => if s.inLoop then some s.getNextPacket.2 else none

/-! What a history says. -/

/-- The last power event was power-off. -/
def isOff (history : List PowerInput) : Bool :=
  history.foldl (fun off input =>
    match input with
    | powerOn => false
    | powerOff => true
    | _ => off) false

/-- The last e-stop event was stop. -/
def isStopped (history : List PowerInput) : Bool :=
  history.foldl (fun stopped input =>
    match input with
    | estop => true
    | estopClear => false
    | _ => stopped) false

/-- How many packets were polled since the last power-off event, if there was one. -/
def pollsSinceOff (history : List PowerInput) : Option Nat :=
  history.foldl (fun polls input =>
    match input with
    | powerOff => some 0
    | poll => polls.map (· + 1)
    | _ => polls) none

section
variable (past : List PowerInput)

@[simp] theorem isOff_nil : isOff [] = false := rfl

@[simp] theorem isOff_concat (input : PowerInput) : isOff (past ++ [input]) =
    match input with
    | powerOn => false
    | powerOff => true
    | _ => isOff past := by
  simp [isOff]

@[simp] theorem isStopped_nil : isStopped [] = false := rfl

@[simp] theorem isStopped_concat (input : PowerInput) : isStopped (past ++ [input]) =
    match input with
    | estop => true
    | estopClear => false
    | _ => isStopped past := by
  simp [isStopped]

@[simp] theorem pollsSinceOff_nil : pollsSinceOff [] = none := rfl

@[simp] theorem pollsSinceOff_concat (input : PowerInput) : pollsSinceOff (past ++ [input]) =
    match input with
    | powerOff => some 0
    | poll => (pollsSinceOff past).map (· + 1)
    | _ => pollsSinceOff past := by
  simp [pollsSinceOff]

end

/-! The registration and the countdown follow the history, whatever it is. -/

namespace TrackPowerState

/-- What the countdown holds when `polls` packets were polled since the last power-off event. -/
def Counts (source : EstopPacketSource) : Option Nat → Prop
  | none => source.done = none
  | some polls =>
    source.numToNotify = 20 - polls ∧ source.done = if polls < 20 then some .estopExpired else none

/-- The state agrees with the history, as far as the packet source is concerned. -/
structure Agrees (past : List PowerInput) (s : TrackPowerState) : Prop where
  off : s.estopSource.isEOff = isOff past
  stopped : s.estopSource.isEStop = isStopped past
  registered : s.estopSource.isRegistered = s.inLoop
  inLoop : s.inLoop = (isOff past || isStopped past)
  counts : Counts s.estopSource (pollsSinceOff past)

theorem agrees_start (numToNotify : Fin 64) : Agrees [] (start numToNotify) :=
  ⟨rfl, rfl, rfl, rfl, rfl⟩

/-- What a poll does to the countdown and to the output. -/
theorem counts_getNextPacket {s : TrackPowerState} {polls : Option Nat}
    (h : Counts s.estopSource polls) :
    Counts s.getNextPacket.2.estopSource (polls.map (· + 1)) ∧
    s.getNextPacket.2.trackDisabled = (s.trackDisabled || decide (polls = some 19)) := by
  obtain ⟨source, inLoop, track, lcc⟩ := s
  obtain ⟨registered, off, stopped, dcc, count, done⟩ := source
  cases polls with
  | none =>
    simp only [Counts] at h
    subst h
    simp only [getNextPacket, Counts, Option.map_none]
    split_ifs <;> simp
  | some polls =>
    obtain ⟨hcount, hdone⟩ := h
    simp only at hcount hdone
    subst hcount hdone
    by_cases hlast : polls = 19
    · subst hlast
      simp [getNextPacket, Counts, call]
    · by_cases hlow : polls < 19
      · have hne : ¬ 20 - polls = 0 := by omega
        have hne' : ¬ 20 - polls - 1 = 0 := by omega
        have hlt : polls + 1 < 20 := by omega
        simp only [getNextPacket, Counts, hne, hne', hlt, if_false, Option.map_some]
        simp [hlast, show polls < 20 by omega]
        omega
      · have hzero : 20 - polls = 0 := by omega
        simp only [getNextPacket, Counts, hzero, if_true, Option.map_some]
        simp [hlast, show ¬ polls < 20 by omega, show ¬ polls + 1 < 20 by omega]
        omega

/-- A poll leaves the registration and the two event bits as they are. -/
theorem getNextPacket_frame (s : TrackPowerState) :
    s.getNextPacket.2.estopSource.isEOff = s.estopSource.isEOff ∧
    s.getNextPacket.2.estopSource.isEStop = s.estopSource.isEStop ∧
    s.getNextPacket.2.estopSource.isRegistered = s.estopSource.isRegistered ∧
    s.getNextPacket.2.inLoop = s.inLoop := by
  obtain ⟨⟨registered, off, stopped, dcc, count, done⟩, inLoop, track, lcc⟩ := s
  rcases done with _ | ⟨⟩
  · simp only [getNextPacket]
    split_ifs <;> exact ⟨rfl, rfl, rfl, rfl⟩
  · simp only [getNextPacket, call]
    split_ifs <;> exact ⟨rfl, rfl, rfl, rfl⟩

/-- Every step keeps the packet source in agreement with the history. -/
theorem Agrees.step {past : List PowerInput} {s s' : TrackPowerState} {input : PowerInput}
    (h : Agrees past s) (hstep : s.step input = some s') : Agrees (past ++ [input]) s' := by
  obtain ⟨hoff, hstopped, hregistered, hinLoop, hcounts⟩ := h
  cases input with
  | poll =>
    simp only [TrackPowerState.step] at hstep
    split_ifs at hstep
    cases hstep
    obtain ⟨hframeOff, hframeStop, hframeRegistered, hframeLoop⟩ := getNextPacket_frame s
    refine ⟨?_, ?_, ?_, ?_, ?_⟩
    · simpa [hframeOff] using hoff
    · simpa [hframeStop] using hstopped
    · rw [hframeRegistered, hframeLoop, hregistered]
    · simpa [hframeLoop] using hinLoop
    · simpa using (counts_getNextPacket hcounts).1
  | powerOn | powerOff | estop | estopClear =>
    cases hstep
    obtain ⟨source, inLoop, track, lcc⟩ := s
    obtain ⟨registered, off, stopped, dcc, count, done⟩ := source
    simp only at hoff hstopped hregistered hinLoop hcounts
    subst hoff hstopped hregistered
    cases hpast : isOff past <;> cases hstop : isStopped past <;>
      simp only [hpast, hstop, Bool.or_true, Bool.or_false] at hinLoop <;>
      subst hinLoop <;>
      constructor <;>
      simp [setPower, setStop, registerSource, unregisterSource, startCounting, Counts, hpast,
        hstop] <;>
      exact hcounts

/-- What a step does to the track output. -/
theorem Agrees.trackDisabled {past : List PowerInput} {s s' : TrackPowerState} {input : PowerInput}
    (h : Agrees past s) (hstep : s.step input = some s') : s'.trackDisabled =
      match input with
      | powerOn => false
      | poll => s.trackDisabled || decide (pollsSinceOff past = some 19)
      | _ => s.trackDisabled := by
  cases input with
  | poll =>
    simp only [TrackPowerState.step] at hstep
    split_ifs at hstep
    cases hstep
    exact (counts_getNextPacket h.counts).2
  | powerOn => cases hstep; rfl
  | powerOff | estop | estopClear =>
    cases hstep
    simp only [setPower, setStop, registerSource, unregisterSource, startCounting]
    split_ifs <;> simp_all

theorem agrees_of_run {numToNotify : Fin 64} {past : List PowerInput} {s : TrackPowerState}
    (hrun : Trace.run step (start numToNotify) past = some s) : Agrees past s :=
  Trace.invariant_of_step (agrees_start numToNotify) (fun _ _ _ _ h hstep => h.step hstep) hrun

/-! Track power follows the events as long as no countdown ends under power. -/

/-- While power is not off, the track output is not disabled; and the packet loop holds the e-stop
source exactly if power is off or the trains are stopped. -/
def Follows (past : List PowerInput) (s : TrackPowerState) : Prop :=
  (isOff past = false → s.trackDisabled = false) ∧
  (s.inLoop = true ↔ isOff past = true ∨ isStopped past = true)

/-- A step after which power is off leaves the track output disabled exactly if it was so before or
the step polls the 20th packet since the last power-off event. -/
def DisablesInTime (past : List PowerInput) (s : TrackPowerState) (input : PowerInput)
    (s' : TrackPowerState) : Prop :=
  isOff (past ++ [input]) = true →
    (s'.trackDisabled = true ↔
      s.trackDisabled = true ∨ input = poll ∧ pollsSinceOff (past ++ [input]) = some 20)

/-- The step polls the 20th packet since the last power-off event while power is on. -/
def ExpiresUnderPower (past : List PowerInput) (input : PowerInput) : Prop :=
  input = poll ∧ isOff past = false ∧ pollsSinceOff past = some 19

theorem disablesInTime {numToNotify : Fin 64} {past : List PowerInput} {s s' : TrackPowerState}
    {input : PowerInput} (hrun : Trace.run step (start numToNotify) past = some s)
    (hstep : s.step input = some s') : DisablesInTime past s input s' := by
  intro hoff
  rw [(agrees_of_run hrun).trackDisabled hstep]
  cases input with
  | powerOn => simp at hoff
  | poll =>
    simp only [Bool.or_eq_true, decide_eq_true_eq, true_and, pollsSinceOff_concat,
      Option.map_eq_some_iff]
    constructor
    · rintro (h | h)
      · exact Or.inl h
      · exact Or.inr ⟨19, h, rfl⟩
    · rintro (h | ⟨polls, hpolls, hsucc⟩)
      · exact Or.inl h
      · obtain rfl : polls = 19 := by omega
        exact Or.inr hpolls
  | powerOff | estop | estopClear => simp

theorem Follows.step {numToNotify : Fin 64} {past : List PowerInput} {s s' : TrackPowerState}
    {input : PowerInput} (hrun : Trace.run step (start numToNotify) past = some s)
    (h : Follows past s) (hinput : ¬ ExpiresUnderPower past input)
    (hstep : s.step input = some s') : Follows (past ++ [input]) s' := by
  have hagrees := agrees_of_run hrun
  refine ⟨fun hoff => ?_, ?_⟩
  · rw [hagrees.trackDisabled hstep]
    cases input with
    | powerOn => rfl
    | powerOff => simp at hoff
    | estop | estopClear => exact h.1 (by simpa using hoff)
    | poll =>
      have hpast : isOff past = false := by simpa using hoff
      have hcount : pollsSinceOff past ≠ some 19 := fun hcount => hinput ⟨rfl, hpast, hcount⟩
      simp [h.1 hpast, hcount]
  · rw [(hagrees.step hstep).inLoop, Bool.or_eq_true]

/-- Track power follows the power events, and the packet loop holds the e-stop source when it
should, all along a run exactly if no step of the run polls the 20th packet since the last power-off
event while power is on. -/
theorem follows_power_iff (numToNotify : Fin 64) (history : List PowerInput) :
    (Trace.Always step Follows (start numToNotify) history ∧
      Trace.EachStep step DisablesInTime (start numToNotify) history) ↔
    Trace.EachStep step (fun past _ input _ => ¬ ExpiresUnderPower past input)
      (start numToNotify) history := by
  constructor
  · rintro ⟨halways, -⟩ past input future s s' heq hrun hstep ⟨rfl, hoff, hcount⟩
    have hafter : Follows (past ++ [poll]) s' :=
      halways (past ++ [poll]) future s' (by simp [heq])
        (Trace.run_concat_eq_some.mpr ⟨s, hrun, hstep⟩)
    have hdisabled := (agrees_of_run hrun).trackDisabled hstep
    rw [hafter.1 (by simpa using hoff)] at hdisabled
    simp [hcount] at hdisabled
  · intro heach
    refine ⟨Trace.always (P := fun past _ input _ => ¬ ExpiresUnderPower past input) ?_ ?_ heach, ?_⟩
    · exact ⟨fun _ => rfl, by simp [start]⟩
    · exact fun past input s s' hrun h hinput hstep => h.step hrun hinput hstep
    · exact fun past input _ s s' _ hrun hstep => disablesInTime hrun hstep

/-- Power off, e-stop, power on again, and twenty packets of the e-stop: the output is disabled
although power is on. -/
theorem powerOn_then_expires :
    ¬ Trace.Always step Follows (start 0)
      (powerOff :: estop :: powerOn :: List.replicate 20 poll) := by
  intro h
  have hrun : (Trace.run step (start 0) (powerOff :: estop :: powerOn ::
      List.replicate 20 poll)).map TrackPowerState.trackDisabled = some true := by decide
  obtain ⟨s, hs, hdisabled⟩ := Option.map_eq_some_iff.mp hrun
  have hafter := (h _ [] s (by simp) hs).1 (by decide)
  rw [hdisabled] at hafter
  cases hafter

end TrackPowerState

end OpenmrnCue.CommandStation
