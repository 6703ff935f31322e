import OpenmrnCue.Server.LayoutState
import Mathlib.Data.UInt

/-! `TrainControlService.cxx`: the packets of the host that change the layout state, and the
requests of the clients that change it or wait for a change.  The host is one where `char` is
signed. -/

namespace OpenmrnCue.Server

/-- `packet[i]` as an `int`. -/
def chr (packet : List UInt8) (i : Nat) : Int32 := (packet[i]?.getD 0).toInt8.toInt32

def cmdCanPkt : Int32 := 0x1a

/-- `PacketMatch`, of the header. -/
def packetMatch (packet : List UInt8) (sid eid : Int32) (len : Nat) : Bool :=
  if packet.length ≠ len + 6 then false
  else if chr packet 5 ≠ (Int8.ofNat len).toInt32 then false
  else if chr packet 0 ≠ cmdCanPkt then false
  else if chr packet 1 ≠ sid >>> 8 then false
  else if chr packet 2 ≠ sid &&& 0xff then false
  else if chr packet 3 ≠ eid >>> 8 then false
  else if chr packet 4 &&& 0xfe ≠ eid &&& 0xfe then false
  else true

/-- `PacketMatch`, of the header and the first bytes after it. -/
def packetMatchData (packet : List UInt8) (sid eid : Int32) (len : Nat) (d : List UInt8) : Bool :=
  packetMatch packet sid eid len &&
    (List.range d.length).all fun i => chr packet (6 + i) == (d.getD i 0).toUInt32.toInt32

/-- The packet for a train that `packet_arrived` looks for after the emergency stop. -/
def trainMatch (packet : List UInt8) : Bool :=
  packet.length == 9 && chr packet 0 == cmdCanPkt && chr packet 1 == 0x40 &&
    chr packet 2 == 0x48 && chr packet 3 &&& 1 == 1 && chr packet 4 == 0 && chr packet 5 == 3 &&
    chr packet 7 == 0

/-- A new value of the emergency stop. -/
def LayoutState.setStop (state : LayoutState) (ts : Nat) (value : Bool) :
    LayoutState × List Nat :=
  if value ≠ state.stop then { state with stop := value }.touchAllLoks ts else (state, [])

/-- The touches of a lok, whose new entry is `st`, and of the layout. -/
def LayoutState.touchLok (state : LayoutState) (ts : Nat) (lokid : Int) (st : LokState) :
    LayoutState × List Nat :=
  ((state.touched ts).withLok lokid (st.touched ts),
    (st.touch ts).2 ++ (state.touch ts).2)

/-- A new speed and direction. -/
def LayoutState.setSpeed (state : LayoutState) (ts : Nat) (lokid : Int) (fnvalue : Int32) :
    LayoutState × List Nat :=
  let st := state.lok lokid
  let sst := st.speedAndDir
  let dir := if fnvalue &&& 0x80 ≠ 0 then -1 else 1
  let speed := (fnvalue &&& 0x7f).toInt
  if dir ≠ sst.dir ∨ speed ≠ sst.speed then
    let sst := { sst with dir := dir, speed := speed }
    let touched := state.touchLok ts lokid (st.withSpeed (sst.touched ts))
    (touched.1, (sst.touch ts).2 ++ touched.2)
  else (state.withLok lokid st, [])

/-- A new value of a function. -/
def LayoutState.setFn (state : LayoutState) (ts : Nat) (lokid fnid fnvalue : Int) :
    LayoutState × List Nat :=
  let st := state.lok lokid
  let fst := st.fn[fnid]?.getD {}
  if fst.value ≠ fnvalue then
    let fst := { fst with value := fnvalue }
    let touched := state.touchLok ts lokid (st.withFn fnid (fst.touched ts))
    (touched.1, (fst.touch ts).2 ++ touched.2)
  else (state.withLok lokid (st.withFn fnid fst), [])

/-- `LayoutStateListener::packet_arrived`, when the clock shows `nsec`: the new state, and the
listeners that are called. -/
def LayoutState.packetArrived (state : LayoutState) (nsec : Nat) (packet : List UInt8) :
    LayoutState × List Nat :=
  let ts := nsec / 1000
  if packet.isEmpty ∨ chr packet 0 ≠ cmdCanPkt then (state, [])
  else if packetMatchData packet 0x4008 0x0900 3 [1, 0] then
    state.setStop ts (chr packet 8 ≠ 0)
  else if trainMatch packet then
    let lokid := (chr packet 3 >>> 2).toInt
    let fnid := chr packet 6
    let fnvalue := chr packet 8
    if fnid = 1 then state.setSpeed ts lokid fnvalue
    else state.setFn ts lokid fnid.toInt fnvalue.toInt
  else (state, [])

/-- The request of a client to set the emergency stop. -/
def LayoutState.setEmergencyStop (state : LayoutState) (nsec : Nat) (stop : Bool) :
    LayoutState × List Nat :=
  { state with stop := stop }.touchAllLoks (nsec / 1000)

/-- What a client waits for: a train, or the layout. -/
abbrev Target := Option Int

/-- The request of a client to wait for a change; it fails when the train does not exist. -/
def LayoutState.waitForChange (state : LayoutState) (target : Target) (timestamp done : Nat) :
    LayoutState × List Nat :=
  match target with
  | none =>
    let added := state.addListener timestamp done
    ({ state with toTimestampedState := added.1 }, added.2)
  | some id =>
    match state.loks[id]? with
    | none => (state, [])
    | some st =>
      let added := st.addListener timestamp done
      (state.withLok id { st with toTimestampedState := added.1 }, added.2)

/-- What happens to the layout state, with what the clock shows. -/
inductive ServerStep where
  | packet (nsec : Nat) (packet : List UInt8)
  | emergencyStop (nsec : Nat) (stop : Bool)
  | waitForChange (target : Target) (timestamp done : Nat)
deriving DecidableEq, Repr

def LayoutState.step (state : LayoutState) : ServerStep → LayoutState × List Nat
  | .packet nsec packet => state.packetArrived nsec packet
  | .emergencyStop nsec stop => state.setEmergencyStop nsec stop
  | .waitForChange target timestamp done => state.waitForChange target timestamp done

/-- One step after the other: the state, and the listeners that have been called. -/
def LayoutState.run (state : LayoutState) : List ServerStep → LayoutState × List Nat
  | [] => (state, [])
  | step :: steps =>
    let rest := (state.step step).1.run steps
    (rest.1, (state.step step).2 ++ rest.2)

end OpenmrnCue.Server
