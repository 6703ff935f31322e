import OpenmrnCue.DccMaster.TrackPackets
import OpenmrnCue.Library.Conformance

/-! The master of `dcc-master.cpp`: what it does with the packets that arrive on the bus, and its
loop, which gives the packets for the track to a booster.  The booster tells in its keepalive how
many packets it has room for.  A request for the programming track goes before the commands that
wait in a queue, and these go before the refresh of all locomotives in turn. -/

namespace OpenmrnCue.DccMaster

/-- A packet on the bus.  Of the bytes in the buffer the packet has `len`; those behind are from
earlier packets. -/
structure CanPacket where
  sid : BitVec 16
  eid : BitVec 16
  len : Nat
  data : List Byte
deriving DecidableEq, Repr

/-- `can_buf[CAN_D0 + i]`. -/
def CanPacket.d (p : CanPacket) (i : Nat) : Byte := p.data.getD i 0

/-- `can_buf[CAN_EIDH]`. -/
def CanPacket.eidh (p : CanPacket) : Byte := p.eid.extractLsb' 8 8

/-- `can_buf[CAN_EIDL]`. -/
def CanPacket.eidl (p : CanPacket) : Byte := p.eid.extractLsb' 0 8

def masterSid : BitVec 16 := 0xe000
def slaveSid : BitVec 16 := 0xe020

/-- The commands of the bus, as in `dcc-can-proto.h`. -/
def cmdKeepalive : Byte := 1
def cmdAck : Byte := 5
def cmdNoack : Byte := 7
def cmdPoweron : Byte := 9
def cmdPoweroff : Byte := 11
def cmdDisable : Byte := 19
def cmdEnable : Byte := 21

def dccSuccess : Byte := 0
def dccErrNoack : Byte := 0x80
def dccErrId : Byte := 0x81
def dccErrServiceNotDcc : Byte := 0x82

inductive ServiceModeRequest where
  | read
  | write
  | verify
deriving DecidableEq, Repr

/-- `WriteState`; `idle` is 0. -/
inductive WriteState where
  | idle
  | request
  | enterIdle
  | enterResetPre
  | enterReset
  | sendWrite
  | waitWrite
  | waitWrite2
  | verify
  | waitVerify
  | waitVerify2
  | sendReadBits
  | waitRead
  | waitReadbit
  | exitReset
deriving DecidableEq, Repr

/-- An entry of the priority queue. -/
structure Prio where
  id : BitVec 5
  what : BitVec 4
deriving DecidableEq, Repr

def prioritySize : Nat := 4
def dccNumLoco : Nat := 22
def prioLspeed : Byte := 14
def prioSpeed : Byte := 15
def serviceRetryCount : Nat := 10

/-- `dcc_master` and `dcc_master_loco`. -/
structure Master where
  freePacketCount : Byte
  alive : Bool
  enabled : Bool
  serviceMode : Bool
  serviceModeRequest : ServiceModeRequest
  serviceModeHadAck : Bool
  serviceModeHadNoack : Bool
  serviceModeId : Byte
  serviceModeCv : Int
  serviceModeValue : Byte
  serviceModeState : WriteState
  serviceModeNextBit : Byte
  serviceModeRetryCounter : Byte
  lastLocoId : Byte
  numLocos : Nat
  priority : List Prio
  locos : List Loco
deriving DecidableEq, Repr

/-- What happens on the bus, and the turns of the refresh: a locomotive, and whether it is the turn
of its speed or of its functions. -/
inductive Event where
  | received (p : CanPacket)
  | sent (p : CanPacket)
  | turn (id : Nat) (speed : Bool)
deriving DecidableEq, Repr

/-- An entry of `const_lokdb`; the labels and the name are left out. -/
structure ConstLoco where
  address : Byte
  functionMapping : List Byte
  mode : Byte

/-- The value of a field of one bit. -/
def ofBit (b : Bool) : Byte := if b then 1 else 0

/-- Turns a function on or off. -/
def Loco.setFn (l : Loco) (fn : Nat) (value : Byte) : Loco :=
  { l with fn := if value ≠ 0 then l.fn ||| 1#16 <<< fn else l.fn &&& ~~~(1#16 <<< fn) }

/-- A packet about a locomotive. -/
def locoPacket (sid : BitVec 16) (id : Byte) (data : List Byte) : CanPacket :=
  { sid, eid := (1#8 ||| id <<< 2) ++ 0#8, len := data.length, data }

/-- `RespondLocoFnValue`, with the function mapping of the locomotive. -/
def respondLocoFnValue (mapping : List Byte) (id : Byte) (l : Loco) (what : Byte) : List Event :=
  let respond (value : Byte) := [Event.sent (locoPacket 0x4048 id [what, 0, value])]
  if what = 32 then respond (ofBit l.paused)
  else if what = 33 then respond (ofBit l.reversed)
  else if what = 1 then respond l.speed
  else if l.fncount ≤ (what - 2).toNat then []
  else respond (ofBit (l.fn.getLsbD (mapping.getD (what - 2).toNat 0).toNat))

/-- `const_lokdb[id].function_mapping`. -/
def mapping (db : List ConstLoco) (id : Nat) : List Byte :=
  ((db[id]?).map ConstLoco.functionMapping).getD []

def dccLongPreambleCmd : Byte := 0b00001100
def dccServiceMode5xWithAckCmd : Byte := 0b00111000
def dccServiceMode5xCmd : Byte := 0b00101000
def dccServiceMode1xCmd : Byte := 0b00001000

/-- A packet for the booster. -/
def boosterPacket (data : List Byte) : CanPacket :=
  { sid := slaveSid, eid := 0, len := data.length, data }

namespace Master

def setLoco (m : Master) (id : Nat) (l : Loco) : Master := { m with locos := m.locos.set id l }

/-- A locomotive with an address. -/
def known (m : Master) (id : Nat) : Option Loco := (m.locos[id]?).filter (·.address ≠ 0)

/-! ### Commands -/

/-- `AddToPriorityQueue`; the result tells whether there was room. -/
def addToPriorityQueue (m : Master) (id : Nat) (what : Byte) : Bool × Master :=
  if m.priority.length < prioritySize then
    (true, { m with priority := m.priority ++ [⟨BitVec.ofNat 5 id, what.setWidth 4⟩] })
  else (false, m)

/-- `DccLoop_SetLocoPaused`, with what it returns. -/
def setLocoPaused (m : Master) (id : Nat) (isPaused : Byte) : Nat × Master × List Event :=
  match m.known id with
  | none => (1, m, [])
  | some l =>
    let l := { l with paused := isPaused ≠ 0 }
    let (added, m) := (m.setLoco id l).addToPriorityQueue id prioSpeed
    (if added then 0 else 2, m, respondLocoFnValue [] (BitVec.ofNat 8 id) l 32)

/-- `DccLoop_SetLocoFn`, with what it returns. -/
def setLocoFn (m : Master) (id : Nat) (fn value : Byte) : Nat × Master :=
  match m.known id with
  | none => (1, m)
  | some l =>
    if 7 < fn then (1, m)
    else
      let (added, m) := (m.setLoco id (l.setFn fn.toNat value)).addToPriorityQueue id fn
      (if added then 0 else 2, m)

/-- `DccLoop_SetLocoAbsoluteSpeed`.  The speed is compared with itself, so that a change of the
direction goes unnoticed. -/
def setLocoAbsoluteSpeed (m : Master) (id : Nat) (absSpeed : Byte) : Master × List Event :=
  match m.known id with
  | none => (m, [])
  | some l =>
    let l := { l with speed := absSpeed }
    (((m.setLoco id l).addToPriorityQueue id prioLspeed).2,
      respondLocoFnValue [] (BitVec.ofNat 8 id) l 1)

/-- `DccLoop_SetLocoRelativeSpeed`. -/
def setLocoRelativeSpeed (m : Master) (id : Nat) (relSpeed : Byte) : Master :=
  match m.known id with
  | none => m
  | some l =>
    if l.relativeSpeed = relSpeed then m
    else ((m.setLoco id { l with relativeSpeed := relSpeed }).addToPriorityQueue id prioLspeed).2

/-- `DccLoop_SetLocoReversed`, which does not check the number; `none` if it is not in the table.
`reversed` has one bit, and is compared with the whole argument. -/
def setLocoReversed (m : Master) (id : Nat) (isReversed : Byte) : Option (Master × List Event) :=
  (m.locos[id]?).map fun l =>
    if isReversed = ofBit l.reversed then
      (m, respondLocoFnValue [] (BitVec.ofNat 8 id) l 33)
    else
      let l := { l with reversed := isReversed.getLsbD 0, dirChanged := true }
      (((m.setLoco id l).addToPriorityQueue id prioSpeed).2,
        respondLocoFnValue [] (BitVec.ofNat 8 id) l 33)

/-! ### Packets from the bus -/

/-- `DccLoop_HandlePacketToMaster`. -/
def handlePacketToMaster (m : Master) (p : CanPacket) : Master × List Event :=
  if p.d 0 = cmdKeepalive then
    ({ m with freePacketCount := p.d 1, alive := p.d 2 ≠ 0 },
      [.sent (boosterPacket [cmdKeepalive])])
  else if p.d 0 = cmdAck then ({ m with serviceModeHadAck := true }, [])
  else if p.d 0 = cmdNoack then ({ m with serviceModeHadNoack := true }, [])
  else if p.d 0 = cmdDisable then ({ m with enabled := false }, [])
  else if p.d 0 = cmdEnable then ({ m with enabled := true }, [])
  else (m, [])

/-- The packet that turns the track on or off. -/
def handlePower (p : CanPacket) : List Event :=
  if p.sid = 0x4008 ∧ p.eid = 0x0901 ∧ p.len = 3 ∧ p.d 0 = 1 ∧ p.d 1 = 0 then
    [.sent (boosterPacket [if p.d 2 ≠ 0 then cmdPoweroff else cmdPoweron])]
  else []

/-- The packet that sets the speed or a function of a locomotive; `none` if it is not in the
table. -/
def handleSet (db : List ConstLoco) (m : Master) (p : CanPacket) : Option (Master × List Event) :=
  if p.sid = 0x4048 ∧ p.eidl &&& 0xfe = 0 ∧ p.eidh &&& 3 = 1 ∧ p.len = 3 ∧ p.d 1 = 0 then
    let id := (p.eidh >>> 2).toNat
    if m.numLocos ≤ id ∨ p.d 0 = 0 then some (m, [])
    else
      (m.locos[id]?).bind fun l =>
        if p.d 0 = 1 then
          let l := { l with dirChanged := (p.d 2 ^^^ l.speed).getLsbD 7, speed := p.d 2 }
          some (((m.setLoco id l).addToPriorityQueue id prioLspeed).2, [])
        else if p.d 0 = 32 then some (m.setLocoPaused id (p.d 2)).2
        else if p.d 0 = 33 then m.setLocoReversed id (p.d 2)
        else if l.fncount ≤ (p.d 0 - 2).toNat then some (m, [])
        else
          let fn := (mapping db id).getD (p.d 0 - 2).toNat 0
          some (((m.setLoco id (l.setFn fn.toNat (p.d 2))).addToPriorityQueue id fn).2, [])
  else some (m, [])

/-- The packet that asks for a value that the mobile stations do not know; `none` if the locomotive
is not in the table. -/
def handleQuery (db : List ConstLoco) (m : Master) (p : CanPacket) : Option (List Event) :=
  if (p.sid = 0x4048 ∨ p.sid = 0xc048) ∧ p.eidl &&& 0xfe = 0 ∧ p.eidh &&& 3 = 1 ∧ p.d 1 = 0 ∧
      (p.len = 2 ∧ 32 ≤ p.d 0 ∨ 40 ≤ p.eidh ∨ 0x0b ≤ p.d 0) then
    let id := (p.eidh >>> 2).toNat
    (m.locos[id]?).map fun l => respondLocoFnValue (mapping db id) (p.eidh >>> 2) l (p.d 0)
  else some []

/-- The packet that asks to read or write a configuration variable. -/
def handleServiceRequest (m : Master) (p : CanPacket) : Master :=
  if p.sid = 0xc048 ∧ 5 ≤ p.len ∧ p.d 0 = 1 ∧ p.d 1 = 2 ∧ p.d 2 = 0xff then
    let m := { m with
      serviceModeId := p.eidh >>> 2
      serviceModeCv := (p.d 3).toNat * 256 + (p.d 4).toNat - 1
      serviceMode := true
      serviceModeState := .request }
    if p.len = 7 ∧ p.d 5 = 0 then
      { m with serviceModeRequest := .write, serviceModeValue := p.d 6 }
    else if p.len = 7 ∧ p.d 5 = 1 then
      { m with serviceModeRequest := .verify, serviceModeValue := p.d 6 }
    else { m with serviceModeRequest := .read }
  else m

/-- `DccLoop_HandlePacket`; `none` if it reads beyond the table of locomotives. -/
def handlePacket (db : List ConstLoco) (m : Master) (p : CanPacket) :
    Option (Master × List Event) := do
  let (m, told) := if p.sid = masterSid ∧ 0 < p.len then m.handlePacketToMaster p else (m, [])
  let (m, set) ← m.handleSet db p
  let asked ← m.handleQuery db p
  return (m.handleServiceRequest p, told ++ handlePower p ++ set ++ asked)

/-! ### Service mode -/

/-- `SendServiceModeResponse`. -/
def sendServiceModeResponse (m : Master) (code value : Byte) : Master × List Event :=
  let cv := m.serviceModeCv + 1
  ({ m with serviceModeCv := cv, serviceMode := false, serviceModeState := .idle },
    [.sent (locoPacket 0xc048 m.serviceModeId
      [1, 2, 0xff, BitVec.ofInt 8 (cv / 256), BitVec.ofInt 8 cv, code, value])])

/-- A packet for the track. -/
def sendTrack (m : Master) (data : List Byte) : Master × List Event :=
  ({ m with freePacketCount := m.freePacketCount - 1 }, [.sent (boosterPacket data)])

/-- An acknowledgement of the bit that was asked for. -/
def bitRead (m : Master) : Master :=
  let bit := (1 : Byte) <<< (m.serviceModeNextBit &&& 7)
  let m := { m with
    serviceModeRetryCounter := 0
    serviceModeValue := if m.serviceModeNextBit.getLsbD 3 then m.serviceModeValue ||| bit
      else m.serviceModeValue &&& ~~~bit }
  if m.serviceModeNextBit &&& 7 = 7 then
    { m with serviceModeState := .enterReset, serviceModeRequest := .verify }
  else
    { m with
      serviceModeNextBit := (m.serviceModeNextBit &&& 7) + 1
      serviceModeState := .sendReadBits }

/-- The first part of `HandleServiceMode`: the answer of the booster.  A response ends it. -/
def serviceAnswer (m : Master) : Master × Option (List Event) :=
  let respond (m : Master) (code value : Byte) :=
    (m.sendServiceModeResponse code value).map id some
  match m.serviceModeState with
  | .waitWrite2 =>
    let m' := if m.serviceModeHadAck then
      { m with serviceModeState := .enterReset, serviceModeRequest := .verify } else m
    if m.serviceModeHadNoack then respond m' dccErrNoack 0 else (m', none)
  | .waitVerify2 =>
    if m.serviceModeHadAck then respond m dccSuccess m.serviceModeValue
    else if m.serviceModeHadNoack then
      let m' := { m with serviceModeRetryCounter := m.serviceModeRetryCounter + 1 }
      if serviceRetryCount < m.serviceModeRetryCounter.toNat then respond m' dccErrNoack 0
      else ({ m' with serviceModeState := .verify }, none)
    else (m, none)
  | .waitReadbit =>
    let m := if m.serviceModeHadAck then m.bitRead else m
    if m.serviceModeHadNoack then
      if m.serviceModeNextBit.getLsbD 3 then
        let m' := { m with serviceModeRetryCounter := m.serviceModeRetryCounter + 1 }
        if serviceRetryCount < m.serviceModeRetryCounter.toNat then respond m' dccErrNoack 0
        else
          ({ m' with
            serviceModeNextBit := m.serviceModeNextBit &&& ~~~8
            serviceModeState := .sendReadBits }, none)
      else
        ({ m with
          serviceModeNextBit := m.serviceModeNextBit ||| 8
          serviceModeState := .sendReadBits }, none)
    else (m, none)
  | _ => (m, none)

/-- A packet of service mode about the variable: the instruction with the address, and a byte. -/
def servicePacket (instruction : Byte) (cv : Int) (value : Byte) : List Byte :=
  dccPacket dccServiceMode5xWithAckCmd 3 (instruction ||| (BitVec.ofInt 8 (cv / 256) &&& 3))
    (BitVec.ofInt 8 cv) value

/-- The second part of `HandleServiceMode`: the next packet. -/
def serviceSend (m : Master) : Master × List Event :=
  let send (next : WriteState) (data : List Byte) :=
    { m with serviceModeState := next }.sendTrack data
  let ask (next : WriteState) (instruction value : Byte) :=
    { m with
      serviceModeHadAck := false
      serviceModeHadNoack := false
      serviceModeState := next }.sendTrack (servicePacket instruction m.serviceModeCv value)
  match m.serviceModeState with
  | .request =>
    let id := m.serviceModeId.toNat
    if id ≠ 0x3f ∧ m.numLocos ≤ id then m.sendServiceModeResponse dccErrId 0
    else if id ≠ 0x3f ∧ (m.locos[id]?).all (!·.isDcc) then
      m.sendServiceModeResponse dccErrServiceNotDcc 0
    else send .enterIdle (dccPacket dccLongPreambleCmd 0 0 0 0)
  | .enterIdle => send .enterResetPre (dccPacket dccDefaultCmd 2 0xff 0 0)
  | .enterResetPre => send .enterReset (dccPacket dccLongPreambleCmd 0 0 0 0)
  | .enterReset =>
    let (m, events) := m.sendTrack (dccPacket dccServiceMode5xCmd 2 0 0 0)
    match m.serviceModeRequest with
    | .write => ({ m with serviceModeState := .sendWrite }, events)
    | .read =>
      ({ m with
        serviceModeState := .sendReadBits
        serviceModeNextBit := 0
        serviceModeRetryCounter := 0 }, events)
    | .verify => ({ m with serviceModeState := .verify, serviceModeRetryCounter := 0 }, events)
  | .exitReset => send .waitWrite2 (dccPacket dccServiceMode1xCmd 2 0 0 0)
  | .sendWrite => ask .waitWrite 0b01111100 m.serviceModeValue
  | .waitWrite => send .waitWrite2 (dccPacket dccServiceMode1xCmd 2 0 0 0)
  | .verify => ask .waitVerify 0b01110100 m.serviceModeValue
  | .waitVerify => send .waitVerify2 (dccPacket dccServiceMode1xCmd 2 0 0 0)
  | .sendReadBits =>
    ask .waitRead 0b01111000 (0b11100000 ||| (m.serviceModeNextBit &&& 0xf))
  | .waitRead => send .waitReadbit (dccPacket dccServiceMode1xCmd 2 0 0 0)
  | .idle | .waitWrite2 | .waitVerify2 | .waitReadbit => (m, [])

/-- `HandleServiceMode`. -/
def handleServiceMode (m : Master) : Master × List Event :=
  match m.serviceAnswer with
  | (m, some response) => (m, response)
  | (m, none) => if m.freePacketCount = 0 then (m, []) else m.serviceSend

/-! ### The loop -/

/-- The packet of the first entry of the queue. -/
def sendPriority (m : Master) (first : Prio) (rest : List Prio) : Master × List Event :=
  let id := first.id.toNat
  let m := { m with priority := rest }
  match m.known id with
  | none => (m, [])
  | some l =>
    if first.what = 15 then
      let (l, data) := sendDccLocoSpeedPacket l true
      (m.setLoco id l).sendTrack data
    else
      match sendLocoFnPacket l first.what.toNat true with
      | none => (m, [])
      | some data => m.sendTrack data

/-- Looks for a locomotive behind `last`, in at most `tries` rounds of the loop. -/
def nextLoco (m : Master) : Nat → Byte → Byte × Option Loco
  | 0, last => (last, none)
  | tries + 1, last =>
    let last := if dccNumLoco ≤ (last + 1).toNat then 0 else last + 1
    match m.known last.toNat with
    | none => m.nextLoco tries last
    | some l => (last, some l)

/-- The next position of the functions.  A locomotive of DCC comes from 5 to 1. -/
def nextPosition (l : Loco) : BitVec 4 :=
  if l.isDcc then
    if 4 < l.loopPosition + 4 then 1 else l.loopPosition + 4
  else if (if 4 < l.fncount then (8 : BitVec 4) else 4) < l.loopPosition + 1 then 1
  else l.loopPosition + 1

/-- The turn of the next locomotive: its speed, and the next time its functions. -/
def refresh (m : Master) : Master × List Event :=
  match m.nextLoco dccNumLoco m.lastLocoId with
  | (last, none) => ({ m with lastLocoId := last }, [])
  | (last, some l) =>
    let id := last.toNat
    if l.loopAtSpeed then
      let (l, data) := sendDccLocoSpeedPacket l false
      let (m, events) :=
        ({ m with lastLocoId := last - 1 }.setLoco id
          { l with loopAtSpeed := false }).sendTrack data
      (m, .turn id true :: events)
    else
      let m := { m with lastLocoId := last }.setLoco id
        { l with loopPosition := nextPosition l, loopAtSpeed := true }
      match sendLocoFnPacket l l.loopPosition.toNat false with
      | none => (m, [.turn id false])
      | some data =>
        let (m, events) := m.sendTrack data
        (m, .turn id false :: events)

/-- The first part of `DccLoop_ProcessIO`. -/
def processService (m : Master) : Master × List Event :=
  if m.alive && m.enabled && m.serviceMode then m.handleServiceMode else (m, [])

/-- The second part of `DccLoop_ProcessIO`. -/
def processLoop (m : Master) : Master × List Event :=
  if m.alive && m.enabled && !m.serviceMode && m.freePacketCount ≠ 0 then
    match m.priority with
    | first :: rest => m.sendPriority first rest
    | [] => m.refresh
  else (m, [])

/-- `DccLoop_ProcessIO`. -/
def processIO (m : Master) : Master × List Event :=
  let (m, service) := m.processService
  let (m, loop) := m.processLoop
  (m, service ++ loop)

/-! ### Runs -/

/-- `DccLoop_Init`; what it does not set is 0 at first. -/
def init (db : List ConstLoco) : Master :=
  { freePacketCount := 0
    alive := false
    enabled := true
    serviceMode := false
    serviceModeRequest := .read
    serviceModeHadAck := false
    serviceModeHadNoack := false
    serviceModeId := 0
    serviceModeCv := 0
    serviceModeValue := 0
    serviceModeState := .idle
    serviceModeNextBit := 0
    serviceModeRetryCounter := 0
    lastLocoId := 0
    numLocos := dccNumLoco
    priority := []
    locos := (db.take dccNumLoco).map fun c =>
      { address := c.address
        speed := 0
        fn := 0
        relativeSpeed := 16
        fncount := (c.functionMapping.takeWhile (· ≠ 0xff)).length
        loopPosition := 0
        loopAtSpeed := true
        driveType := c.mode.setWidth 3
        dirChanged := false
        paused := false
        reversed := false
        isPushpull := c.mode.getLsbD 3 } }

end Master

/-- What the master reacts to: a packet from the bus, behind which the loop runs twice, and calls
from other threads. -/
inductive Input where
  | packet (p : CanPacket)
  | setLocoPaused (id : Nat) (isPaused : Byte)
  | setLocoFn (id : Nat) (fn value : Byte)
  | setLocoAbsoluteSpeed (id : Nat) (absSpeed : Byte)
  | setLocoRelativeSpeed (id : Nat) (relSpeed : Byte)
  | setLocoReversed (id : Nat) (isReversed : Byte)
  | emergencyStop
deriving DecidableEq, Repr

/-- A step with what happens in it. -/
def react (db : List ConstLoco) (m : Master) : Input → Option (Master × List Event)
  | .packet p => do
    let (m, handled) ← m.handlePacket db p
    let (m, first) := m.processIO
    let (m, second) := m.processIO
    return (m, .received p :: handled ++ first ++ second)
  | .setLocoPaused id isPaused => some (m.setLocoPaused id isPaused).2
  | .setLocoFn id fn value => some ((m.setLocoFn id fn value).2, [])
  | .setLocoAbsoluteSpeed id absSpeed => some (m.setLocoAbsoluteSpeed id absSpeed)
  | .setLocoRelativeSpeed id relSpeed => some (m.setLocoRelativeSpeed id relSpeed, [])
  | .setLocoReversed id isReversed => m.setLocoReversed id isReversed
  | .emergencyStop => some (m, [.sent (boosterPacket [cmdPoweroff])])

/-- A step of the master with the log of its events. -/
def step (db : List ConstLoco) : Master × List Event → Input → Option (Master × List Event) :=
  Conformance.logged (react db)

/-- Two locomotives of DCC and one of Marklin, with an empty entry between them. -/
def sampleDb : List ConstLoco :=
  [⟨50, [0, 1, 2, 3, 0xff], 5⟩, ⟨0, [], 0⟩, ⟨12, [0, 2, 3, 4, 0xff], 2⟩, ⟨3, [0, 0xff], 5⟩]

/-- A keepalive of a booster that has power and room for `free` packets. -/
def keepalive (free : Byte) : Input :=
  .packet ⟨masterSid, 0, 3, [cmdKeepalive, free, 1, 0, 0, 0, 0, 0]⟩

end OpenmrnCue.DccMaster
