import OpenmrnCue.CommandStation.TrainAllocation
import OpenmrnCue.CommandStation.TrainConfigSpace
import OpenmrnCue.Library.Reconcile
import Mathlib.Data.List.FinRange

/-! The database of trains, `TrainDb` of `TrainDb.cxx`, and the nodes of the trains, `AllTrainNodes`
of `AllTrainNodes.cxx`.  The entries of the database that are stored in the configuration file are
views: they read the file whenever they are asked.  After an edit of the file the entries are loaded
again, and then the nodes are brought into agreement with them. -/

namespace OpenmrnCue.CommandStation

open FindProtocolDefs DccMode

/-- What an entry has of a train: `address` and `mode` of `const_traindb_entry_t` or
`TrainDbCdiEntry`. -/
structure TrainFields where
  address : Nat
  mode : DccMode
deriving DecidableEq, Repr

/-- The contents of the `n` stored entries. -/
abbrev StoredTrains (n : Nat) := Fin n → TrainFields

/-- An entry: `ConstTrainDbEntry`, `FileTrainDbEntry` or `DccTrainDbEntry`. -/
inductive DbEntry (n : Nat) where
  | compiledIn (fields : TrainFields)
  | file (i : Fin n)
  | allocated (fields : TrainFields)
deriving DecidableEq, Repr

/-- What OpenMRN defines: `train_node_id_from_legacy`, and the address type of a `LoggingTrain` that
is constructed without one. -/
structure TractionDefs where
  trainNodeIdFromLegacy : TrainAddressType → Nat → Nat
  loggingTrainType : TrainAddressType

/-- The database `db_` over the stored entries, and `trains_`, whose nodes are given by their IDs.
-/
structure AllTrainNodes (n : Nat) where
  stored : StoredTrains n
  entries : List (DbEntry n)
  trains : List (Impl Nat)

/-- What happens to the trains: `allocate_node`, an edit of the file, and a configuration update. -/
inductive TrainsInput (n : Nat) where
  | allocateNode (driveType : DccMode) (address : Nat)
  | write (stored : StoredTrains n)
  | update (initialLoad : Bool)

variable {n : Nat} (traction : TractionDefs) (build : Build)

namespace DbEntry

/-- What the entry reads. -/
def fields (stored : StoredTrains n) : DbEntry n → TrainFields
  | .compiledIn fields => fields
  | .file i => stored i
  | .allocated fields => fields

/-- The node ID of an address under a drive mode. -/
def legacyNode (fields : TrainFields) : Nat :=
  traction.trainNodeIdFromLegacy (dccModeToAddressType fields.mode fields.address) fields.address

/-- `get_traction_node`. -/
def tractionNode (stored : StoredTrains n) : DbEntry n → Nat
  | .compiledIn fields =>
    if fields.mode = olcbUser then 0x050101010000 ||| fields.address
    else legacyNode traction fields
  | .file i => legacyNode traction (stored i)
  | .allocated fields => legacyNode traction fields

end DbEntry

/-- The modes that `create_impl` drives by the Marklin protocol, and those by DCC. -/
def marklinModes : List DccMode := [marklinOld, marklinDefault, marklinNew, marklinTwoaddr]
def dccModes : List DccMode :=
  [dcc14, dcc14 ||| DccMode.dccLongAddress, dcc28, dcc28 ||| DccMode.dccLongAddress,
    dcc128, dcc128 ||| DccMode.dccLongAddress]

/-- The address type of the train that `create_impl` creates, if it creates one. -/
def trainType (mode : DccMode) (address : Nat) : Option TrainAddressType :=
  if mode ∈ marklinModes then some .mm
  else if mode ∈ dccModes then
    some (if mode &&& DccMode.dccLongAddress ≠ 0 ∨ 128 ≤ address then .dccLongAddress
      else .dccShortAddress)
  else
    match build with
    | .emscripten => some .dccLongAddress
    | .freeRtos => none
    | .native => if mode = fakeDrive then some traction.loggingTrainType else none

/-- `create_impl`. -/
def createImpl (trainId : Int) (mode : DccMode) (address : Nat) : Option (Impl Nat) :=
  (trainType traction build mode address).map fun type =>
    ⟨trainId, traction.trainNodeIdFromLegacy type address⟩

/-- `create_impl` for an entry. -/
def DbEntry.create (stored : StoredTrains n) (trainId : Nat) (entry : DbEntry n) :
    Option (Impl Nat) :=
  createImpl traction build trainId (entry.fields stored).mode (entry.fields stored).address

/-- `init_const_lokdb`: the offset of a `ConstTrainDbEntry` is a `uint8_t`. -/
def initConstLokdb (constLokdb : List TrainFields) : List (DbEntry n) :=
  (List.range constLokdb.length).filterMap fun i => do
    let fields ← constLokdb[i % 256]?
    if fields.address ≠ 0 then some (.compiledIn fields) else none

/-- A stored entry has the address of a train. -/
def TrainFields.HasAddress (fields : TrainFields) : Prop :=
  fields.address ≠ 0 ∧ fields.address ≠ 0xffff

instance (fields : TrainFields) : Decidable fields.HasAddress := inferInstanceAs (Decidable (_ ∧ _))

namespace AllTrainNodes

/-- The constructor, over a database that has just been constructed. -/
def construct (constLokdb : List TrainFields) (stored : StoredTrains n) : AllTrainNodes n :=
  let entries : List (DbEntry n) := initConstLokdb constLokdb
  { stored
    entries
    trains := (List.range constLokdb.length).filterMap fun trainId => do
      (← entries[trainId]?).create traction build stored trainId }

variable (s : AllTrainNodes n)

/-- The loop of the initial `load_from_file`. -/
def loadInitially (entries : List (DbEntry n)) (i : Fin n) : List (DbEntry n) :=
  if (s.stored i).HasAddress ∧ (s.stored i).mode ≠ 0 then entries ++ [.file i] else entries

/-- The loop of a later `load_from_file`. -/
def loadAgain (entries : List (DbEntry n)) (i : Fin n) : List (DbEntry n) :=
  if (s.stored i).HasAddress then
    let node := (DbEntry.file i).tractionNode traction s.stored
    if entries.any fun e => e.tractionNode traction s.stored = node then
      entries.map fun e => if e.tractionNode traction s.stored = node then .file i else e
    else entries ++ [.file i]
  else entries

/-- `load_from_file`. -/
def loadFromFile (initialLoad : Bool) : AllTrainNodes n :=
  { s with
    entries := (List.finRange n).foldl
      (if initialLoad then s.loadInitially else s.loadAgain traction) s.entries }

/-- `find_entry`: the hint is passed as an `unsigned`. -/
def findEntry (node : Nat) (hint : Int) : Option (DbEntry n) :=
  match s.entries[(hint % 2 ^ 32).toNat]? with
  | some e =>
    if e.tractionNode traction s.stored = node then some e
    else s.entries.find? fun e => e.tractionNode traction s.stored = node
  | none => s.entries.find? fun e => e.tractionNode traction s.stored = node

/-- The second loop of `update_config`, which goes through the entries with their train IDs. -/
def createMissing (trains : List (Impl Nat)) : List (Impl Nat) :=
  Reconcile.supply (fun entry impl => impl.node = entry.1.tractionNode traction s.stored)
    (fun entry impl => { impl with id := entry.2 })
    (fun entry => entry.1.create traction build s.stored entry.2) trains
    s.entries.zipIdx

/-- `update_config`: the first loop deletes the trains that no entry is found for. -/
def updateConfig : AllTrainNodes n :=
  { s with
    trains := s.createMissing traction build
      (Reconcile.prune (fun impl => (s.findEntry traction impl.node impl.id).isSome) s.trains) }

/-- `allocate_node`, with the node ID that it returns. -/
def allocateNode (driveType : DccMode) (address : Nat) : AllTrainNodes n × Nat :=
  match createImpl traction build (-1) driveType address with
  | none => (s, 0)
  | some impl =>
    ({ s with
        entries := s.entries ++ [.allocated ⟨address % 2 ^ 16, driveType⟩]
        trains := s.trains ++ [{ impl with id := s.entries.length }] }, impl.node)

/-- `get_train_node_id`. -/
def getTrainNodeId (id : Nat) : Nat :=
  match s.trains[id]? with
  | none => 0
  | some impl => impl.node

/-- One of the things that happen. -/
def step : TrainsInput n → AllTrainNodes n
  | .allocateNode driveType address => (s.allocateNode traction build driveType address).1
  | .write stored => { s with stored }
  | .update initialLoad => (s.loadFromFile traction initialLoad).updateConfig traction build

/-- The IDs of the nodes. -/
def nodeIds : List Nat := s.trains.map Impl.node

end AllTrainNodes

end OpenmrnCue.CommandStation
