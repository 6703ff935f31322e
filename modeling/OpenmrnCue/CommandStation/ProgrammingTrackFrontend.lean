import OpenmrnCue.Library.Trace

/-! `ProgrammingTrackFrontend` of `ProgrammingTrackFrontend.hxx`: a flow that serves one programming
request at a time, on the programming track through a backend or on the main track.  It enters service
mode with the first request for the programming track; a timer or a short circuit queues the request
that leaves it.  Between any two states of the flow requests can arrive and the timer can expire; the
answer of the backend and what railcom reported are given to the state that asks for them. -/

namespace OpenmrnCue.CommandStation

/-- `dcc::TrainAddressType`, with the accessories. -/
inductive ProgrammingTrackFrontend.TrainAddressType where
  | dccShortAddress
  | dccLongAddress
  | dccAccyBasicOutput
  | dccAccyExt
  | mm
  | unspecified
  | unsupported
deriving DecidableEq, Repr

/-- `ProgrammingTrackFrontendRequest::Type`. -/
inductive RequestType where
  | directWriteByte
  | directWriteBit
  | directReadByte
  | directReadBit
  | pomWriteByte
  | pomReadByte
  | pomWriteBit
  | pagedWriteByte
  | pagedVerifyByte
  | pagedReadByte
  | exitServiceMode
deriving DecidableEq, Repr

/-- `ProgrammingTrackFrontendRequest`. -/
structure FrontendRequest where
  cmd : RequestType
  cvOffset : Nat
  value : Nat
  bitOffset : Nat
  addrType : ProgrammingTrackFrontend.TrainAddressType
  dccAddress : Nat
deriving DecidableEq, Repr

/-- The request that the frontend sends itself to leave service mode. -/
def exitRequest : FrontendRequest := ⟨.exitServiceMode, 0, 0, 0, .unspecified, 0⟩

/-- `ResultCodes`, with `ERROR_TEMPORARY`. -/
inductive ResultCode where
  | ok
  | noLoco
  | failedVerify
  | noRailcom
  | invalidResponse
  | pgmShort
  | unimplementedCmd
  | invalidArgs
  | pgmtrackDisabled
  | temporary
deriving DecidableEq, Repr

/-- The packets for the programming track. -/
inductive ServicePacket where
  | writeByte (cv value : Nat)
  | writeBit (cv bit : Nat) (value : Bool)
  | verifyByte (cv value : Nat)
  | verifyBit (cv bit : Nat) (value : Bool)
  | pagedSetPage (page : Nat)
  | pagedWriteReg (register value : Nat)
  | pagedVerifyReg (register value : Nat)
deriving DecidableEq, Repr

/-- `ProgrammingTrackRequest`: what the frontend asks of the backend. -/
inductive BackendRequest where
  | enterServiceMode
  | exitServiceMode
  | sendReset (count : Nat)
  | sendProgrammingPacket (packet : ServicePacket) (repeats : Nat) (terminateOnAck : Bool)
deriving DecidableEq, Repr

/-- A packet for the main track. -/
inductive PomPacket where
  | write (addrType : ProgrammingTrackFrontend.TrainAddressType) (address cv value : Nat)
  | read (addrType : ProgrammingTrackFrontend.TrainAddressType) (address cv : Nat)
deriving DecidableEq, Repr

/-- `errorCode_` after a packet for the main track. -/
inductive RailcomStatusCode where
  | pending
  | ok
  | busy
deriving DecidableEq, Repr

/-- What a state of the flow is told: the answer of the backend, and what railcom reported. -/
structure FrontendAnswer where
  hasShortCircuit : Bool
  hasAck : Bool
  errorCode : RailcomStatusCode
  seenRailcomBusy : Bool
  seenRailcomGarbage : Bool
  cvData : Nat
deriving DecidableEq, Repr

/-- The states of the flow.  `idle` is the flow that waits for a request. -/
inductive FrontendState where
  | idle
  | entry
  | enterServiceMode
  | sendInitialResets
  | enterServiceModeDone
  | actServiceMode
  | writePktSent
  | writeCooldownDone
  | writeVerifyCooldown
  | writeVerifyCooldownDone
  | directReadByte
  | readNextBit
  | checkNextBitOne
  | cooldownNextBitOne
  | checkFinalByte
  | cooldownFinalVerify
  | sendPagePreset
  | sendPagesetCooldown
  | sendPagedCommand
  | pagedWriteDone
  | pagedWriteCooldownDone
  | pagedHardResetExit
  | pomWriteByte
  | fillPomWriteBytePacket
  | writeReturned
  | pomReadByte
  | fillPomReadBytePacket
  | readReturned
  | exitServiceMode
  | exitServiceModeDone
  | pgmShort
deriving DecidableEq, Repr

/-- The timer of service mode: `triggered` is a timer that `stop_wait` has made expire and whose
expiry is not yet handled. -/
inductive ServiceModeTimer where
  | stopped
  | armed
  | triggered
deriving DecidableEq, Repr

/-- The parameters of a frontend. -/
structure FrontendParams where
  hasBackend : Bool
  verifyRepeats : Nat
  verifyCooldownReset : Nat

/-- `ProgrammingTrackFrontend`: the state of the flow with the request it serves and those queued
behind it, its data, and what it has sent and returned. -/
structure ProgrammingTrackFrontend where
  state : FrontendState
  request : FrontendRequest
  queue : List FrontendRequest
  inServiceMode : Bool
  isRunning : Bool
  timer : ServiceModeTimer
  foundAck : Bool
  hasWriteAck : Bool
  nextBitToRead : Nat
  confirmedOnes : Nat
  pagedRegister : Nat
  numTry : Nat
  backendRequests : List BackendRequest
  pomPackets : List PomPacket
  results : List ResultCode

/-- What can happen: a request arrives, the timer of service mode expires, or the flow runs its
current state. -/
inductive FrontendInput where
  | arrive (request : FrontendRequest)
  | timerExpired
  | flow (answer : FrontendAnswer)

namespace ProgrammingTrackFrontend

/-- The frontend after construction. -/
def start : ProgrammingTrackFrontend where
  state := .idle
  request := exitRequest
  queue := []
  inServiceMode := false
  isRunning := false
  timer := .stopped
  foundAck := false
  hasWriteAck := false
  nextBitToRead := 0
  confirmedOnes := 0
  pagedRegister := 0
  numTry := 0
  backendRequests := []
  pomPackets := []
  results := []

/-- The last request to the backend that enters or leaves service mode. -/
def lastMode (s : ProgrammingTrackFrontend) : Option BackendRequest :=
  (s.backendRequests.filter fun r => r = .enterServiceMode || r = .exitServiceMode).getLast?

/-- `call_immediately`. -/
def goto (s : ProgrammingTrackFrontend) (next : FrontendState) : ProgrammingTrackFrontend :=
  { s with state := next }

/-- `invoke_subflow_and_wait`. -/
def invoke (s : ProgrammingTrackFrontend) (next : FrontendState) (r : BackendRequest) :
    ProgrammingTrackFrontend :=
  { s with backendRequests := s.backendRequests ++ [r], state := next }

/-- `return_with_error`. -/
def returnWith (s : ProgrammingTrackFrontend) (code : ResultCode) : ProgrammingTrackFrontend :=
  { s with results := s.results ++ [code], state := .idle }

/-- `ServiceModeTimer::ping`.  A timer that is still active must not be started. -/
def ping (s : ProgrammingTrackFrontend) : Option ProgrammingTrackFrontend :=
  if s.isRunning then some s
  else if s.timer ≠ .stopped then none
  else some { s with timer := .armed, isRunning := true }

/-- `ServiceModeTimer::stop_wait`. -/
def stopWait (s : ProgrammingTrackFrontend) : ProgrammingTrackFrontend :=
  if s.isRunning then { s with timer := .triggered, isRunning := false } else s

/-- `ServiceModeTimer::timeout`. -/
def timeout (s : ProgrammingTrackFrontend) : ProgrammingTrackFrontend :=
  let triggered := s.timer = .triggered
  let s := { s with isRunning := false, timer := .stopped }
  if triggered then s else { s with queue := s.queue ++ [exitRequest] }

/-- `done_and_return`. -/
def doneAndReturn (s : ProgrammingTrackFrontend) (code : ResultCode) :
    Option ProgrammingTrackFrontend :=
  s.ping.map (·.returnWith code)

/-- `exit_unimplemented`. -/
def exitUnimplemented (s : ProgrammingTrackFrontend) : Option ProgrammingTrackFrontend :=
  s.doneAndReturn .unimplementedCmd

/-- `pgm_short`. -/
def pgmShort (s : ProgrammingTrackFrontend) : ProgrammingTrackFrontend :=
  { s with queue := s.queue ++ [exitRequest] }.returnWith .pgmShort

/-- `entry`. -/
def entry (s : ProgrammingTrackFrontend) : ProgrammingTrackFrontend :=
  match s.request.cmd with
  | .directWriteByte | .directWriteBit | .directReadByte | .directReadBit | .pagedWriteByte
  | .pagedVerifyByte => s.goto .enterServiceMode
  | .pomReadByte => { s with numTry := 0 }.goto .pomReadByte
  | .pomWriteByte => { s with numTry := 0 }.goto .pomWriteByte
  | .pomWriteBit | .pagedReadByte => s.returnWith .unimplementedCmd
  | .exitServiceMode => s.goto .exitServiceMode

/-- `enter_service_mode`. -/
def enterServiceMode (params : FrontendParams) (s : ProgrammingTrackFrontend) :
    ProgrammingTrackFrontend :=
  if s.inServiceMode then s.goto .actServiceMode
  else if !params.hasBackend then s.returnWith .pgmtrackDisabled
  else { s with inServiceMode := true }.invoke .sendInitialResets .enterServiceMode

/-- `send_initial_resets`. -/
def sendInitialResets (answer : FrontendAnswer) (s : ProgrammingTrackFrontend) :
    ProgrammingTrackFrontend :=
  if answer.hasShortCircuit then s.goto .pgmShort
  else s.invoke .enterServiceModeDone (.sendReset 85)

/-- `enter_service_mode_done`. -/
def enterServiceModeDone (answer : FrontendAnswer) (s : ProgrammingTrackFrontend) :
    ProgrammingTrackFrontend :=
  if answer.hasShortCircuit then s.goto .pgmShort else s.goto .actServiceMode

/-- The write and verify packets of direct mode. -/
def directWritePacket (r : FrontendRequest) : Option ServicePacket :=
  match r.cmd with
  | .directWriteByte => some (.writeByte r.cvOffset r.value)
  | .directWriteBit => some (.writeBit r.cvOffset r.bitOffset (r.value != 0))
  | _ => none

def directVerifyPacket (r : FrontendRequest) : Option ServicePacket :=
  match r.cmd with
  | .directWriteByte => some (.verifyByte r.cvOffset r.value)
  | .directWriteBit => some (.verifyBit r.cvOffset r.bitOffset (r.value != 0))
  | _ => none

/-- `act_service_mode`. -/
def actServiceMode (s : ProgrammingTrackFrontend) : Option ProgrammingTrackFrontend :=
  match s.request.cmd with
  | .directReadByte => some (s.goto .directReadByte)
  | .pagedWriteByte | .pagedVerifyByte => some (s.goto .sendPagePreset)
  | _ =>
    match directWritePacket s.request with
    | none => s.exitUnimplemented
    | some packet =>
      some ({ s with foundAck := false, hasWriteAck := false }.invoke .writePktSent
        (.sendProgrammingPacket packet 5 false))

/-- `if (b->data()->hasAck_) foundAck_ = 1`. -/
def noteAck (s : ProgrammingTrackFrontend) (answer : FrontendAnswer) : ProgrammingTrackFrontend :=
  if answer.hasAck then { s with foundAck := true } else s

/-- `write_pkt_sent`. -/
def writePktSent (answer : FrontendAnswer) (s : ProgrammingTrackFrontend) :
    ProgrammingTrackFrontend :=
  if answer.hasShortCircuit then s.goto .pgmShort
  else (s.noteAck answer).invoke .writeCooldownDone (.sendReset 15)

/-- `write_cooldown_done`. -/
def writeCooldownDone (params : FrontendParams) (answer : FrontendAnswer)
    (s : ProgrammingTrackFrontend) : Option ProgrammingTrackFrontend :=
  if answer.hasShortCircuit then some (s.goto .pgmShort)
  else
    let s := s.noteAck answer
    let s := { s with hasWriteAck := s.foundAck }
    match directVerifyPacket s.request with
    | none => s.exitUnimplemented
    | some packet =>
      some ({ s with foundAck := false }.invoke .writeVerifyCooldown
        (.sendProgrammingPacket packet params.verifyRepeats false))

/-- `write_verify_cooldown`. -/
def writeVerifyCooldown (params : FrontendParams) (answer : FrontendAnswer)
    (s : ProgrammingTrackFrontend) : ProgrammingTrackFrontend :=
  if answer.hasShortCircuit then s.goto .pgmShort
  else (s.noteAck answer).invoke .writeVerifyCooldownDone (.sendReset params.verifyCooldownReset)

/-- `write_verify_cooldown_done`. -/
def writeVerifyCooldownDone (answer : FrontendAnswer) (s : ProgrammingTrackFrontend) :
    Option ProgrammingTrackFrontend :=
  if answer.hasShortCircuit then some (s.goto .pgmShort)
  else
    let s := s.noteAck answer
    s.doneAndReturn
      (if s.foundAck then .ok else if s.hasWriteAck then .failedVerify else .noLoco)

/-- `direct_read_byte`. -/
def directReadByte (s : ProgrammingTrackFrontend) : ProgrammingTrackFrontend :=
  { s with nextBitToRead := 0, confirmedOnes := 0 }.goto .readNextBit

/-- `read_next_bit`. -/
def readNextBit (params : FrontendParams) (s : ProgrammingTrackFrontend) :
    ProgrammingTrackFrontend :=
  s.invoke .checkNextBitOne (.sendProgrammingPacket
    (.verifyBit s.request.cvOffset s.nextBitToRead true) params.verifyRepeats false)

/-- `if (b->data()->hasAck_) confirmedOnes_ |= (1<<nextBitToRead_)`. -/
def confirmOne (s : ProgrammingTrackFrontend) (answer : FrontendAnswer) :
    ProgrammingTrackFrontend :=
  if answer.hasAck then { s with confirmedOnes := s.confirmedOnes ||| (1 <<< s.nextBitToRead) }
  else s

/-- `check_next_bit_one`. -/
def checkNextBitOne (params : FrontendParams) (answer : FrontendAnswer)
    (s : ProgrammingTrackFrontend) : ProgrammingTrackFrontend :=
  if answer.hasShortCircuit then s.goto .pgmShort
  else (s.confirmOne answer).invoke .cooldownNextBitOne (.sendReset params.verifyCooldownReset)

/-- `cooldown_next_bit_one`. -/
def cooldownNextBitOne (params : FrontendParams) (answer : FrontendAnswer)
    (s : ProgrammingTrackFrontend) : ProgrammingTrackFrontend :=
  if answer.hasShortCircuit then s.goto .pgmShort
  else
    let s := s.confirmOne answer
    if s.nextBitToRead = 7 then
      { s with request := { s.request with value := s.confirmedOnes } }.invoke .checkFinalByte
        (.sendProgrammingPacket (.verifyByte s.request.cvOffset s.confirmedOnes)
          params.verifyRepeats false)
    else { s with nextBitToRead := s.nextBitToRead + 1 }.goto .readNextBit

/-- `check_final_byte`. -/
def checkFinalByte (params : FrontendParams) (answer : FrontendAnswer)
    (s : ProgrammingTrackFrontend) : Option ProgrammingTrackFrontend :=
  if answer.hasShortCircuit then some (s.goto .pgmShort)
  else if answer.hasAck then s.doneAndReturn .ok
  else some (s.invoke .cooldownFinalVerify (.sendReset params.verifyCooldownReset))

/-- `cooldown_final_verify`. -/
def cooldownFinalVerify (answer : FrontendAnswer) (s : ProgrammingTrackFrontend) :
    Option ProgrammingTrackFrontend :=
  if answer.hasShortCircuit then some (s.goto .pgmShort)
  else s.doneAndReturn (if answer.hasAck then .ok else .failedVerify)

/-- The page and the register of a configuration variable. -/
def pageOf (cvOffset : Nat) : Nat × Nat :=
  if cvOffset = 6 ∨ cvOffset = 7 then (1, cvOffset)
  else if cvOffset = 28 then (1, 4)
  else ((cvOffset / 4 + 1) &&& 0xFF, cvOffset &&& 3)

/-- `send_page_preset`. -/
def sendPagePreset (s : ProgrammingTrackFrontend) : ProgrammingTrackFrontend :=
  let (page, register) := pageOf s.request.cvOffset
  { s with pagedRegister := register, foundAck := false, hasWriteAck := false }.invoke
    .sendPagedCommand (.sendProgrammingPacket (.pagedSetPage page) 5 true)

/-- `send_pageset_cooldown`. -/
def sendPagesetCooldown (answer : FrontendAnswer) (s : ProgrammingTrackFrontend) :
    ProgrammingTrackFrontend :=
  if answer.hasShortCircuit then s.goto .pgmShort else s.invoke .sendPagedCommand (.sendReset 5)

/-- `send_paged_command`. -/
def sendPagedCommand (answer : FrontendAnswer) (s : ProgrammingTrackFrontend) :
    Option ProgrammingTrackFrontend :=
  if answer.hasShortCircuit then some (s.goto .pgmShort)
  else
    match s.request.cmd with
    | .pagedWriteByte =>
      some (s.invoke .pagedWriteDone
        (.sendProgrammingPacket (.pagedWriteReg s.pagedRegister s.request.value) 5 true))
    | .pagedVerifyByte =>
      some (s.invoke .checkFinalByte
        (.sendProgrammingPacket (.pagedVerifyReg s.pagedRegister s.request.value) 11 true))
    | _ => s.exitUnimplemented

/-- `paged_write_done`. -/
def pagedWriteDone (answer : FrontendAnswer) (s : ProgrammingTrackFrontend) :
    ProgrammingTrackFrontend :=
  if answer.hasShortCircuit then s.goto .pgmShort
  else (s.noteAck answer).invoke .pagedWriteCooldownDone
    (.sendReset (if s.request.cvOffset = 0 then 10 else 5))

/-- `paged_write_cooldown_done`. -/
def pagedWriteCooldownDone (answer : FrontendAnswer) (s : ProgrammingTrackFrontend) :
    ProgrammingTrackFrontend :=
  if answer.hasShortCircuit then s.goto .pgmShort
  else
    let s := s.noteAck answer
    let s := { s with hasWriteAck := s.foundAck, foundAck := false }
    if s.request.cvOffset = 7 ∧ s.request.value = 8 then
      s.invoke .pagedHardResetExit (.sendReset 100)
    else
      s.invoke .writeVerifyCooldownDone
        (.sendProgrammingPacket (.pagedVerifyReg s.pagedRegister s.request.value) 11 true)

/-- `paged_hard_reset_exit`. -/
def pagedHardResetExit (answer : FrontendAnswer) (s : ProgrammingTrackFrontend) :
    Option ProgrammingTrackFrontend :=
  if answer.hasShortCircuit then some (s.goto .pgmShort)
  else
    let s := s.noteAck answer
    s.doneAndReturn (if s.foundAck || s.hasWriteAck then .ok else .noLoco)

/-- `fill_pom_write_byte_packet`. -/
def fillPomWriteBytePacket (s : ProgrammingTrackFrontend) : ProgrammingTrackFrontend :=
  match s.request.addrType with
  | .mm | .unspecified | .unsupported => s.returnWith .invalidArgs
  | addrType =>
    { s with pomPackets := s.pomPackets ++
        [PomPacket.write addrType s.request.dccAddress s.request.cvOffset s.request.value] }.goto
      .writeReturned

/-- The result of a packet for the main track to which no answer came. -/
def noAnswer (answer : FrontendAnswer) : ResultCode :=
  if answer.seenRailcomBusy || answer.seenRailcomGarbage then .invalidResponse else .noRailcom

/-- `write_returned`. -/
def writeReturned (answer : FrontendAnswer) (s : ProgrammingTrackFrontend) :
    ProgrammingTrackFrontend :=
  match answer.errorCode with
  | .pending =>
    if answer.seenRailcomBusy then
      let s := { s with numTry := s.numTry + 1 }
      if s.numTry < 3 then s.goto .pomWriteByte else s.returnWith (noAnswer answer)
    else s.returnWith (noAnswer answer)
  | .ok => s.returnWith .ok
  | .busy => s.returnWith .temporary

/-- `fill_pom_read_byte_packet`. -/
def fillPomReadBytePacket (s : ProgrammingTrackFrontend) : ProgrammingTrackFrontend :=
  match s.request.addrType with
  | .dccShortAddress | .dccLongAddress =>
    { s with pomPackets := s.pomPackets ++
        [PomPacket.read s.request.addrType s.request.dccAddress s.request.cvOffset] }.goto .readReturned
  | _ => s.returnWith .invalidArgs

/-- `read_returned`. -/
def readReturned (answer : FrontendAnswer) (s : ProgrammingTrackFrontend) :
    ProgrammingTrackFrontend :=
  if answer.errorCode = .ok then
    { s with request := { s.request with value := answer.cvData } }.returnWith .ok
  else
    let s := { s with numTry := s.numTry + 1 }
    if s.numTry < 3 then s.goto .pomReadByte else s.returnWith (noAnswer answer)

/-- `exit_service_mode`. -/
def exitServiceMode (params : FrontendParams) (s : ProgrammingTrackFrontend) :
    ProgrammingTrackFrontend :=
  let s := s.stopWait
  if !s.inServiceMode then s.returnWith .ok
  else
    let s := { s with inServiceMode := false }
    if !params.hasBackend then s.returnWith .ok
    else s.invoke .exitServiceModeDone .exitServiceMode

/-- The flow runs its current state.  An idle flow takes the next request. -/
def runState (params : FrontendParams) (answer : FrontendAnswer) (s : ProgrammingTrackFrontend) :
    Option ProgrammingTrackFrontend :=
  match s.state with
  | .idle =>
    match s.queue with
    | [] => none
    | request :: rest => some { s with request := request, queue := rest, state := .entry }
  | .entry => some s.entry
  | .enterServiceMode => some (s.enterServiceMode params)
  | .sendInitialResets => some (s.sendInitialResets answer)
  | .enterServiceModeDone => some (s.enterServiceModeDone answer)
  | .actServiceMode => s.actServiceMode
  | .writePktSent => some (s.writePktSent answer)
  | .writeCooldownDone => s.writeCooldownDone params answer
  | .writeVerifyCooldown => some (s.writeVerifyCooldown params answer)
  | .writeVerifyCooldownDone => s.writeVerifyCooldownDone answer
  | .directReadByte => some s.directReadByte
  | .readNextBit => some (s.readNextBit params)
  | .checkNextBitOne => some (s.checkNextBitOne params answer)
  | .cooldownNextBitOne => some (s.cooldownNextBitOne params answer)
  | .checkFinalByte => s.checkFinalByte params answer
  | .cooldownFinalVerify => s.cooldownFinalVerify answer
  | .sendPagePreset => some s.sendPagePreset
  | .sendPagesetCooldown => some (s.sendPagesetCooldown answer)
  | .sendPagedCommand => s.sendPagedCommand answer
  | .pagedWriteDone => some (s.pagedWriteDone answer)
  | .pagedWriteCooldownDone => some (s.pagedWriteCooldownDone answer)
  | .pagedHardResetExit => s.pagedHardResetExit answer
  | .pomWriteByte => some (s.goto .fillPomWriteBytePacket)
  | .fillPomWriteBytePacket => some s.fillPomWriteBytePacket
  | .writeReturned => some (s.writeReturned answer)
  | .pomReadByte => some (s.goto .fillPomReadBytePacket)
  | .fillPomReadBytePacket => some s.fillPomReadBytePacket
  | .readReturned => some (s.readReturned answer)
  | .exitServiceMode => some (s.exitServiceMode params)
  | .exitServiceModeDone => some (s.returnWith .ok)
  | .pgmShort => some s.pgmShort

/-- One step of the flow or of what is around it. -/
def step (params : FrontendParams) (s : ProgrammingTrackFrontend) :
    FrontendInput → Option ProgrammingTrackFrontend
  | .arrive request => some { s with queue := s.queue ++ [request] }
  | .timerExpired => if s.timer = .stopped then none else some s.timeout
  | .flow answer => s.runState params answer

end ProgrammingTrackFrontend

end OpenmrnCue.CommandStation
