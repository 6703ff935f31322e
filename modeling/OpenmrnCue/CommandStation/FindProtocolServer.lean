import OpenmrnCue.CommandStation.FindProtocolDefs
import OpenmrnCue.Library.Trace

/-! The server of the train search protocol: `FindProtocolServer.hxx`.  Requests come from the
network at any time and wait in a queue; one flow serves them.  A request for all trains that comes
while another one is being served makes that one start again, and its own turn is then skipped.  A
request that follows up on the one being served, from the same node, cuts that one short. -/

namespace OpenmrnCue.CommandStation

open FindProtocolDefs

namespace FindProtocolServer

/-- `REQUEST_GLOBAL_IDENTIFY`: no valid event ID. -/
def requestGlobalIdentify : Nat := 0x0001000000000000

/-- A train: its node ID, and its entry in the database if there is one. -/
structure Train where
  nodeId : Nat
  entry : Option TrainDbEntry
  nodeId_ne_zero : nodeId ≠ 0

/-- `Request`. -/
structure Request (Handle : Type) where
  event : Nat
  src : Handle
deriving DecidableEq, Repr

/-- The MTIs of the answers. -/
inductive Mti where
  | producerIdentifiedRange
  | producerIdentifiedUnknown
  | producerIdentifiedValid
deriving DecidableEq, Repr

/-- What happens around the flow: requests that come in, answers that go out, and calls to
`allocate_node`. -/
inductive Record (Handle : Type) where
  | identifyGlobal (src : Handle)
  | identifyProducer (event : Nat) (src : Handle)
  | identified (mti : Mti) (nodeId event : Nat)
  | allocateNode (mode : DccMode) (address : Nat)
deriving DecidableEq, Repr

/-- The states of `FindProtocolFlow`.  Before `entry` the flow has taken the request from the queue.
-/
inductive Phase where
  | idle
  | entry
  | iterate
  | tryTraindbLookup
  | sendResponse
  | nextIterate
  | iterationDone
  | waitForNewNode
  | newNodeReply
  | sendNewNodeResponse
deriving DecidableEq, Repr

/-- The server and its flow, with the record of what happened. -/
structure Server (Handle : Type) where
  pendingGlobalIdentify : Bool
  pendingIsTrain : Bool
  queue : List (Request Handle)
  message : Option (Request Handle)
  phase : Phase
  eventId : Nat
  nextTrainId : Nat
  newNodeId : Nat
  hasMatches : Bool
  isGlobal : Bool
  cancelIteration : Bool
  record : List (Record Handle)
deriving DecidableEq, Repr

/-- An identify request or find request from the network, or one step of the flow.  `newNodeId` is
what `allocate_node` returns if the step calls it. -/
inductive Input (Handle : Type) where
  | identifyGlobal (src : Handle)
  | identifyProducer (event : Nat) (src : Handle)
  | flow (newNodeId : Nat)
deriving DecidableEq, Repr

/-- `get_query_part` and `QUERY_SHIFTED_MASK`. -/
def getQueryPart (event : Nat) : Nat := (event % 2 ^ trainFindMask) >>> 8
def queryShiftedMask : Nat := (2 ^ trainFindMask - 1) >>> 12

section Flow

variable {Handle : Type} (matchingNode : Handle → Handle → Bool) (trains : List Train)

/-- `is_followup_request`. -/
def isFollowupRequest (current next : Request Handle) : Bool :=
  if !matchingNode current.src next.src then false
  else if HasFlag current.event allocate then false
  else if current.event = next.event then true
  else if ¬ isFindEvent current.event then false
  else if ¬ isFindEvent next.event then false
  else
    let current := getQueryPart current.event
    let next := getQueryPart next.event
    next >>> 4 = current &&& queryShiftedMask ∨ current >>> 4 = next &&& queryShiftedMask

/-- `send`. -/
def send (s : Server Handle) (request : Request Handle) : Server Handle :=
  { s with
    cancelIteration := s.cancelIteration || s.message.any (isFollowupRequest matchingNode · request)
    queue := s.queue ++ [request] }

/-- `handle_identify_global`, for the registration of the find events. -/
def handleIdentifyGlobal (s : Server Handle) (src : Handle) : Server Handle :=
  if s.pendingGlobalIdentify then { s with record := s.record ++ [.identifyGlobal src] }
  else
    send matchingNode
      { s with pendingGlobalIdentify := true, record := s.record ++ [.identifyGlobal src] }
      ⟨requestGlobalIdentify, src⟩

/-- `handle_identify_producer`. -/
def handleIdentifyProducer (s : Server Handle) (event : Nat) (src : Handle) : Server Handle :=
  send matchingNode
    { s with
      pendingIsTrain := s.pendingIsTrain || event == isTrainEvent
      record := s.record ++ [.identifyProducer event src] }
    ⟨event, src⟩

/-- `release_and_exit`. -/
def releaseAndExit (s : Server Handle) : Server Handle := { s with message := none, phase := .idle }

/-- `entry`: the start of the iteration. -/
def startIteration (s : Server Handle) (isGlobal : Bool) : Server Handle :=
  { s with isGlobal, nextTrainId := 0, hasMatches := false, phase := .iterate }

/-- `entry`. -/
def entry (s : Server Handle) (request : Request Handle) : Server Handle :=
  let s := { s with eventId := request.event, cancelIteration := false }
  if request.event = requestGlobalIdentify then
    if s.pendingGlobalIdentify then startIteration { s with pendingGlobalIdentify := false } true
    else releaseAndExit { s with isGlobal := true }
  else if request.event = isTrainEvent then
    if s.pendingIsTrain then startIteration { s with pendingIsTrain := false } true
    else releaseAndExit { s with isGlobal := true }
  else startIteration s false

/-- `iterate`. -/
def iterate (s : Server Handle) : Server Handle :=
  if trains.length ≤ s.nextTrainId then { s with phase := .iterationDone }
  else if s.cancelIteration then { s with phase := .iterationDone }
  else if s.isGlobal then
    if s.eventId = requestGlobalIdentify ∧ s.pendingGlobalIdentify then
      { s with nextTrainId := 0, pendingGlobalIdentify := false }
    else if s.eventId = isTrainEvent ∧ s.pendingIsTrain then
      { s with nextTrainId := 0, pendingIsTrain := false }
    else { s with phase := .sendResponse }
  else { s with phase := .tryTraindbLookup }

/-- A train is in the database and `match_query_to_node` finds it. -/
def Matches (event : Nat) (train : Train) : Prop :=
  ∃ entry, train.entry = some entry ∧ matchQueryToNode event entry ≠ 0

instance (event : Nat) (train : Train) : Decidable (Matches event train) :=
  match h : train.entry with
  | none => .isFalse (by simp [Matches, h])
  | some entry => decidable_of_iff (matchQueryToNode event entry ≠ 0) (by simp [Matches, h])

/-- `try_traindb_lookup`, when the lookup is complete. -/
def tryTraindbLookup (s : Server Handle) : Server Handle :=
  match trains[s.nextTrainId]? with
  | none => { s with phase := .nextIterate }
  | some train =>
    if Matches s.eventId train then { s with hasMatches := true, phase := .sendResponse }
    else { s with phase := .nextIterate }

/-- `send_response`: the answers for a train. -/
def responses (event nodeId : Nat) : List (Record Handle) :=
  if event = requestGlobalIdentify then
    [.identified .producerIdentifiedUnknown nodeId isTrainEvent,
      .identified .producerIdentifiedRange nodeId trainFindBase]
  else if event = isTrainEvent then [.identified .producerIdentifiedUnknown nodeId event]
  else [.identified .producerIdentifiedValid nodeId event]

/-- `send_response`. -/
def sendResponse (s : Server Handle) : Server Handle :=
  match trains[s.nextTrainId]? with
  | none => { s with phase := .nextIterate }
  | some train =>
    { s with record := s.record ++ responses s.eventId train.nodeId, phase := .nextIterate }

/-- `iteration_done`. -/
def iterationDone (s : Server Handle) (newNodeId : Nat) : Server Handle :=
  if !s.hasMatches ∧ !s.isGlobal ∧ HasFlag s.eventId allocate then
    let (mode, address) := queryToAddress s.eventId
    let s := { s with newNodeId, record := s.record ++ [.allocateNode mode address] }
    if newNodeId = 0 then releaseAndExit s else { s with phase := .waitForNewNode }
  else releaseAndExit s

/-- One step of the flow. -/
def flow (s : Server Handle) (newNodeId : Nat) : Option (Server Handle) :=
  match s.phase, s.message with
  | .idle, _ =>
    match s.queue with
    | [] => none
    | request :: queue => some { s with queue, message := some request, phase := .entry }
  | .entry, some request => some (entry s request)
  | .entry, none => none
  | .iterate, _ => some (iterate trains s)
  | .tryTraindbLookup, _ => some (tryTraindbLookup trains s)
  | .sendResponse, _ => some (sendResponse trains s)
  | .nextIterate, _ => some { s with nextTrainId := s.nextTrainId + 1, phase := .iterate }
  | .iterationDone, _ => some (iterationDone s newNodeId)
  | .waitForNewNode, _ => some { s with phase := .newNodeReply }
  | .newNodeReply, _ => some { s with phase := .sendNewNodeResponse }
  | .sendNewNodeResponse, _ =>
    some (releaseAndExit
      { s with record := s.record ++ [.identified .producerIdentifiedValid s.newNodeId s.eventId] })

/-- One step of the server. -/
def step (s : Server Handle) : Input Handle → Option (Server Handle)
  | .identifyGlobal src => some (handleIdentifyGlobal matchingNode s src)
  | .identifyProducer event src =>
    if event = requestGlobalIdentify then none
    else some (handleIdentifyProducer matchingNode s event src)
  | .flow newNodeId => flow trains s newNodeId

end Flow

/-- Before the first request.  `entry` sets the other members. -/
def start {Handle : Type} : Server Handle where
  pendingGlobalIdentify := false
  pendingIsTrain := false
  queue := []
  message := none
  phase := .idle
  eventId := 0
  nextTrainId := 0
  newNodeId := 0
  hasMatches := false
  isGlobal := false
  cancelIteration := false
  record := []

section Cases

variable {Handle : Type} {matchingNode : Handle → Handle → Bool} {trains : List Train}
  {s t : Server Handle} {request : Request Handle}

/-- The requests for all trains. -/
inductive Sweep where
  | global
  | isTrain
deriving DecidableEq, Repr

namespace Sweep

/-- The event that stands for the request. -/
def event : Sweep → Nat
  | global => requestGlobalIdentify
  | isTrain => isTrainEvent

/-- The flag that the request sets. -/
def pending (sweep : Sweep) (s : Server Handle) : Bool :=
  match sweep with
  | global => s.pendingGlobalIdentify
  | isTrain => s.pendingIsTrain

/-- The flow takes up the request. -/
def consume (sweep : Sweep) (s : Server Handle) : Server Handle :=
  match sweep with
  | global => { s with pendingGlobalIdentify := false }
  | isTrain => { s with pendingIsTrain := false }

theorem event_injective {sweep other : Sweep} (h : sweep.event = other.event) : sweep = other := by
  revert h
  cases sweep <;> cases other <;> decide

theorem not_isFindEvent (sweep : Sweep) : ¬ isFindEvent sweep.event := by
  cases sweep <;> decide

section Consume

variable (sweep : Sweep) (s : Server Handle)

@[simp] theorem pending_consume (other : Sweep) :
    other.pending (sweep.consume s) = (decide (other ≠ sweep) && other.pending s) := by
  cases sweep <;> cases other <;> simp [pending, consume]

@[simp] theorem consume_queue : (sweep.consume s).queue = s.queue := by cases sweep <;> rfl
@[simp] theorem consume_message : (sweep.consume s).message = s.message := by cases sweep <;> rfl
@[simp] theorem consume_phase : (sweep.consume s).phase = s.phase := by cases sweep <;> rfl
@[simp] theorem consume_eventId : (sweep.consume s).eventId = s.eventId := by cases sweep <;> rfl
@[simp] theorem consume_nextTrainId : (sweep.consume s).nextTrainId = s.nextTrainId := by
  cases sweep <;> rfl
@[simp] theorem consume_hasMatches : (sweep.consume s).hasMatches = s.hasMatches := by
  cases sweep <;> rfl
@[simp] theorem consume_isGlobal : (sweep.consume s).isGlobal = s.isGlobal := by cases sweep <;> rfl
@[simp] theorem consume_cancelIteration :
    (sweep.consume s).cancelIteration = s.cancelIteration := by cases sweep <;> rfl
@[simp] theorem consume_record : (sweep.consume s).record = s.record := by cases sweep <;> rfl

end Consume

end Sweep

/-- `isGlobal_` for an event. -/
def isSweep (event : Nat) : Bool := event = requestGlobalIdentify ∨ event = isTrainEvent

@[simp] theorem isSweep_event (sweep : Sweep) : isSweep sweep.event = true := by
  cases sweep <;> decide

theorem eq_event_of_isSweep {event : Nat} (h : isSweep event = true) :
    ∃ sweep : Sweep, event = sweep.event := by
  rcases of_decide_eq_true h with rfl | rfl
  · exact ⟨.global, rfl⟩
  · exact ⟨.isTrain, rfl⟩

theorem not_hasFlag_allocate (sweep : Sweep) : ¬ HasFlag sweep.event allocate := by
  cases sweep <;> decide

theorem entry_cases (s : Server Handle) (request : Request Handle) :
    (∃ sweep : Sweep, request.event = sweep.event ∧ sweep.pending s = false ∧
      entry s request = releaseAndExit
        { s with eventId := request.event, cancelIteration := false, isGlobal := true }) ∨
    (∃ sweep : Sweep, request.event = sweep.event ∧ sweep.pending s = true ∧
      entry s request = startIteration
        (sweep.consume { s with eventId := request.event, cancelIteration := false }) true) ∨
    (isSweep request.event = false ∧ entry s request = startIteration
      { s with eventId := request.event, cancelIteration := false } false) := by
  unfold entry
  by_cases hglobal : request.event = requestGlobalIdentify
  · cases hpending : s.pendingGlobalIdentify with
    | false => exact .inl ⟨.global, hglobal, hpending, by simp [hglobal]⟩
    | true => exact .inr (.inl ⟨.global, hglobal, hpending, by simp [hglobal, Sweep.consume]⟩)
  · by_cases htrain : request.event = isTrainEvent
    · have hne : isTrainEvent ≠ requestGlobalIdentify := by decide
      cases hpending : s.pendingIsTrain with
      | false => exact .inl ⟨.isTrain, htrain, hpending, by simp [htrain, hne]⟩
      | true => exact .inr (.inl ⟨.isTrain, htrain, hpending, by simp [htrain, hne, Sweep.consume]⟩)
    · exact .inr (.inr ⟨by simp [isSweep, hglobal, htrain], by simp [hglobal, htrain]⟩)

theorem iterate_cases (trains : List Train) (s : Server Handle) :
    ((trains.length ≤ s.nextTrainId ∨ s.cancelIteration = true) ∧
      iterate trains s = { s with phase := .iterationDone }) ∨
    (s.nextTrainId < trains.length ∧ s.cancelIteration = false ∧ s.isGlobal = true ∧
      ((∃ sweep : Sweep, s.eventId = sweep.event ∧ sweep.pending s = true ∧
        iterate trains s = sweep.consume { s with nextTrainId := 0 }) ∨
      ((∀ sweep : Sweep, s.eventId = sweep.event → sweep.pending s = false) ∧
        iterate trains s = { s with phase := .sendResponse }))) ∨
    (s.nextTrainId < trains.length ∧ s.cancelIteration = false ∧ s.isGlobal = false ∧
      iterate trains s = { s with phase := .tryTraindbLookup }) := by
  unfold iterate
  by_cases hend : trains.length ≤ s.nextTrainId
  · exact .inl ⟨.inl hend, if_pos hend⟩
  · rw [if_neg hend]
    cases hcancel : s.cancelIteration with
    | true => exact .inl ⟨.inr rfl, rfl⟩
    | false =>
      have hlt := Nat.lt_of_not_le hend
      cases hglobal : s.isGlobal with
      | false => exact .inr (.inr ⟨hlt, rfl, rfl, rfl⟩)
      | true =>
        refine .inr (.inl ⟨hlt, rfl, rfl, ?_⟩)
        by_cases h1 : s.eventId = requestGlobalIdentify ∧ s.pendingGlobalIdentify = true
        · exact .inl ⟨.global, h1.1, h1.2, by simp [h1, Sweep.consume]⟩
        · by_cases h2 : s.eventId = isTrainEvent ∧ s.pendingIsTrain = true
          · refine .inl ⟨.isTrain, h2.1, h2.2, ?_⟩
            rw [if_neg (by decide), if_pos rfl, if_neg h1, if_pos h2]
            rfl
          · refine .inr ⟨fun sweep hevent => ?_, by simp [h1, h2]⟩
            cases sweep with
            | global => simpa [hevent, Sweep.event, Sweep.pending] using h1
            | isTrain => simpa [hevent, Sweep.event, Sweep.pending] using h2

/-- The steps of the flow, one for each way through one of its states. -/
inductive FlowStep (trains : List Train) (newNodeId : Nat) : Server Handle → Server Handle → Prop where
  | dequeue {s : Server Handle} {request : Request Handle} {queue : List (Request Handle)}
      (hphase : s.phase = .idle) (hqueue : s.queue = request :: queue) :
      FlowStep trains newNodeId s { s with queue, message := some request, phase := .entry }
  | skip {s : Server Handle} {request : Request Handle} (sweep : Sweep) (hphase : s.phase = .entry)
      (hmessage : s.message = some request) (hevent : request.event = sweep.event)
      (hpending : sweep.pending s = false) :
      FlowStep trains newNodeId s (releaseAndExit
        { s with eventId := request.event, cancelIteration := false, isGlobal := true })
  | startSweep {s : Server Handle} {request : Request Handle} (sweep : Sweep)
      (hphase : s.phase = .entry) (hmessage : s.message = some request)
      (hevent : request.event = sweep.event) (hpending : sweep.pending s = true) :
      FlowStep trains newNodeId s (startIteration
        (sweep.consume { s with eventId := request.event, cancelIteration := false }) true)
  | startFind {s : Server Handle} {request : Request Handle} (hphase : s.phase = .entry)
      (hmessage : s.message = some request) (hsweep : isSweep request.event = false) :
      FlowStep trains newNodeId s (startIteration
        { s with eventId := request.event, cancelIteration := false } false)
  | finish {s : Server Handle} (hphase : s.phase = .iterate)
      (hdone : trains.length ≤ s.nextTrainId ∨ s.cancelIteration = true) :
      FlowStep trains newNodeId s { s with phase := .iterationDone }
  | restart {s : Server Handle} (sweep : Sweep) (hphase : s.phase = .iterate)
      (hlt : s.nextTrainId < trains.length) (hcancel : s.cancelIteration = false)
      (hglobal : s.isGlobal = true) (hevent : s.eventId = sweep.event)
      (hpending : sweep.pending s = true) :
      FlowStep trains newNodeId s (sweep.consume { s with nextTrainId := 0 })
  | report {s : Server Handle} (hphase : s.phase = .iterate) (hlt : s.nextTrainId < trains.length)
      (hcancel : s.cancelIteration = false) (hglobal : s.isGlobal = true)
      (hpending : ∀ sweep : Sweep, s.eventId = sweep.event → sweep.pending s = false) :
      FlowStep trains newNodeId s { s with phase := .sendResponse }
  | lookup {s : Server Handle} (hphase : s.phase = .iterate) (hlt : s.nextTrainId < trains.length)
      (hcancel : s.cancelIteration = false) (hglobal : s.isGlobal = false) :
      FlowStep trains newNodeId s { s with phase := .tryTraindbLookup }
  | found {s : Server Handle} {train : Train} (hphase : s.phase = .tryTraindbLookup)
      (htrain : trains[s.nextTrainId]? = some train) (hmatch : Matches s.eventId train) :
      FlowStep trains newNodeId s { s with hasMatches := true, phase := .sendResponse }
  | notFound {s : Server Handle} (hphase : s.phase = .tryTraindbLookup)
      (hmatch : ∀ train, trains[s.nextTrainId]? = some train → ¬ Matches s.eventId train) :
      FlowStep trains newNodeId s { s with phase := .nextIterate }
  | respond {s : Server Handle} {train : Train} (hphase : s.phase = .sendResponse)
      (htrain : trains[s.nextTrainId]? = some train) :
      FlowStep trains newNodeId s
        { s with record := s.record ++ responses s.eventId train.nodeId, phase := .nextIterate }
  | noResponse {s : Server Handle} (hphase : s.phase = .sendResponse)
      (htrain : trains[s.nextTrainId]? = none) :
      FlowStep trains newNodeId s { s with phase := .nextIterate }
  | next {s : Server Handle} (hphase : s.phase = .nextIterate) :
      FlowStep trains newNodeId s { s with nextTrainId := s.nextTrainId + 1, phase := .iterate }
  | done {s : Server Handle} (hphase : s.phase = .iterationDone)
      (hcond : ¬ (s.hasMatches = false ∧ s.isGlobal = false ∧ HasFlag s.eventId allocate)) :
      FlowStep trains newNodeId s (releaseAndExit s)
  | allocate {s : Server Handle} {phase : Phase}
      {message : Option (Request Handle)} (hphase : s.phase = .iterationDone)
      (hcond : s.hasMatches = false ∧ s.isGlobal = false ∧ HasFlag s.eventId allocate)
      (hresult : phase = .idle ∧ message = none ∨
        phase = .waitForNewNode ∧ message = s.message) :
      FlowStep trains newNodeId s
        { s with
          newNodeId, message, phase
          record := s.record ++
            [.allocateNode (queryToAddress s.eventId).1 (queryToAddress s.eventId).2] }
  | wait {s : Server Handle} {phase : Phase}
      (hphase : s.phase = .waitForNewNode ∨ s.phase = .newNodeReply)
      (hnext : phase = .newNodeReply ∨ phase = .sendNewNodeResponse) :
      FlowStep trains newNodeId s { s with phase }
  | reply {s : Server Handle} (hphase : s.phase = .sendNewNodeResponse) :
      FlowStep trains newNodeId s (releaseAndExit
        { s with record := s.record ++ [.identified .producerIdentifiedValid s.newNodeId s.eventId] })

theorem flowStep_entry {newNodeId : Nat} (hphase : s.phase = .entry)
    (hmessage : s.message = some request) : FlowStep trains newNodeId s (entry s request) := by
  rcases entry_cases s request with ⟨sweep, hevent, hpending, heq⟩ | ⟨sweep, hevent, hpending, heq⟩ |
    ⟨hsweep, heq⟩
  · rw [heq]
    exact .skip sweep hphase hmessage hevent hpending
  · rw [heq]
    exact .startSweep sweep hphase hmessage hevent hpending
  · rw [heq]
    exact .startFind hphase hmessage hsweep

theorem flowStep_iterate {newNodeId : Nat} (hphase : s.phase = .iterate) :
    FlowStep trains newNodeId s (iterate trains s) := by
  rcases iterate_cases trains s with ⟨hdone, heq⟩ |
    ⟨hlt, hcancel, hglobal, ⟨sweep, hevent, hpending, heq⟩ | ⟨hpending, heq⟩⟩ |
    ⟨hlt, hcancel, hglobal, heq⟩
  · rw [heq]
    exact .finish hphase hdone
  · rw [heq]
    exact .restart sweep hphase hlt hcancel hglobal hevent hpending
  · rw [heq]
    exact .report hphase hlt hcancel hglobal hpending
  · rw [heq]
    exact .lookup hphase hlt hcancel hglobal

theorem flowStep_tryTraindbLookup {newNodeId : Nat} (hphase : s.phase = .tryTraindbLookup) :
    FlowStep trains newNodeId s (tryTraindbLookup trains s) := by
  unfold tryTraindbLookup
  split
  · next hnone => exact .notFound hphase (by simp [hnone])
  · next train hsome =>
    split
    · next hmatch => exact .found hphase hsome hmatch
    · next hmatch =>
      refine .notFound hphase fun other hother => ?_
      obtain rfl : train = other := Option.some.inj (hsome.symm.trans hother)
      exact hmatch

theorem flowStep_iterationDone {newNodeId : Nat} (hphase : s.phase = .iterationDone) :
    FlowStep trains newNodeId s (iterationDone s newNodeId) := by
  unfold iterationDone
  split
  · next hcond =>
    have hcond' : s.hasMatches = false ∧ s.isGlobal = false ∧ HasFlag s.eventId allocate := by
      simpa using hcond
    dsimp only
    split
    · exact .allocate hphase hcond' (.inl ⟨rfl, rfl⟩)
    · exact .allocate hphase hcond' (.inr ⟨rfl, rfl⟩)
  · next hcond => exact .done hphase (by simpa using hcond)

/-- Every step of the flow is one of these. -/
theorem flow_step {newNodeId : Nat} (h : flow trains s newNodeId = some t) :
    FlowStep trains newNodeId s t := by
  unfold flow at h
  split at h
  · next hphase =>
    split at h
    · cases h
    · next hqueue =>
      cases h
      exact .dequeue hphase hqueue
  · next hphase hmessage =>
    cases h
    exact flowStep_entry hphase hmessage
  · cases h
  · next hphase =>
    cases h
    exact flowStep_iterate hphase
  · next hphase =>
    cases h
    exact flowStep_tryTraindbLookup hphase
  · next hphase =>
    cases h
    unfold sendResponse
    split
    · next hnone => exact .noResponse hphase hnone
    · next hsome => exact .respond hphase hsome
  · next hphase =>
    cases h
    exact .next hphase
  · next hphase =>
    cases h
    exact flowStep_iterationDone hphase
  · next hphase =>
    cases h
    exact .wait (.inl hphase) (.inl rfl)
  · next hphase =>
    cases h
    exact .wait (.inr hphase) (.inr rfl)
  · next hphase =>
    cases h
    exact .reply hphase

/-- The record of a request for all trains. -/
def Sweep.isRequest (sweep : Sweep) : Record Handle → Bool
  | .identifyGlobal _ => sweep = .global
  | .identifyProducer event _ => sweep = .isTrain ∧ event = isTrainEvent
  | _ => false

/-- A request comes in and waits in the queue. -/
structure Arrival (matchingNode : Handle → Handle → Bool) (request : Request Handle)
    (s t : Server Handle) : Prop where
  queue : t.queue = s.queue ++ [request]
  message : t.message = s.message
  phase : t.phase = s.phase
  eventId : t.eventId = s.eventId
  nextTrainId : t.nextTrainId = s.nextTrainId
  hasMatches : t.hasMatches = s.hasMatches
  isGlobal : t.isGlobal = s.isGlobal
  cancel : t.cancelIteration =
    (s.cancelIteration || s.message.any (isFollowupRequest matchingNode · request))
  pending : ∀ sweep : Sweep, request.event = sweep.event → sweep.pending t = true
  other : ∀ sweep : Sweep, request.event ≠ sweep.event → sweep.pending t = sweep.pending s ∧
    ∃ entry, t.record = s.record ++ [entry] ∧ sweep.isRequest entry = false
  record : ∃ entry, t.record = s.record ++ [entry] ∧ ∀ mode address, entry ≠ .allocateNode mode address

theorem arrival_identifyGlobal {src : Handle} (hpending : s.pendingGlobalIdentify = false) :
    Arrival matchingNode ⟨requestGlobalIdentify, src⟩ s (handleIdentifyGlobal matchingNode s src) := by
  rw [handleIdentifyGlobal, hpending, if_neg (by decide)]
  refine ⟨rfl, rfl, rfl, rfl, rfl, rfl, rfl, rfl, ?_, ?_, ⟨_, rfl, nofun⟩⟩
  · intro sweep hevent
    cases sweep with
    | global => rfl
    | isTrain => exact absurd hevent (show requestGlobalIdentify ≠ isTrainEvent by decide)
  · intro sweep hevent
    cases sweep with
    | global => exact absurd rfl hevent
    | isTrain => exact ⟨rfl, _, rfl, rfl⟩

theorem arrival_identifyProducer {event : Nat} {src : Handle} (hvalid : event ≠ requestGlobalIdentify) :
    Arrival matchingNode ⟨event, src⟩ s (handleIdentifyProducer matchingNode s event src) := by
  refine ⟨rfl, rfl, rfl, rfl, rfl, rfl, rfl, rfl, ?_, ?_, ⟨_, rfl, nofun⟩⟩
  · intro sweep hevent
    cases sweep with
    | global => exact absurd hevent hvalid
    | isTrain =>
      have heq : event = isTrainEvent := hevent
      simp [Sweep.pending, handleIdentifyProducer, send, heq]
  · intro sweep hevent
    cases sweep with
    | global => exact ⟨rfl, _, rfl, by simp [Sweep.isRequest]⟩
    | isTrain =>
      have hne : event ≠ isTrainEvent := hevent
      exact ⟨by simp [Sweep.pending, handleIdentifyProducer, send, hne], _, rfl,
        by simp [Sweep.isRequest, hne]⟩

/-- Every step of the server is a global identify that is swallowed, a request that comes in, or a
step of the flow. -/
theorem step_cases {input : Input Handle} (h : step matchingNode trains s input = some t) :
    (∃ src, s.pendingGlobalIdentify = true ∧
      t = { s with record := s.record ++ [.identifyGlobal src] } ∧
      ∀ newNodeId, input ≠ .flow newNodeId) ∨
    (∃ request, Arrival matchingNode request s t ∧ ∀ newNodeId, input ≠ .flow newNodeId) ∨
    (∃ newNodeId, input = .flow newNodeId ∧ FlowStep trains newNodeId s t) := by
  cases input with
  | identifyGlobal src =>
    cases h
    by_cases hpending : s.pendingGlobalIdentify = true
    · exact .inl ⟨src, hpending, by rw [handleIdentifyGlobal, if_pos hpending], nofun⟩
    · have hfalse : s.pendingGlobalIdentify = false := by simpa using hpending
      exact .inr (.inl ⟨_, arrival_identifyGlobal hfalse, nofun⟩)
  | identifyProducer event src =>
    rw [step] at h
    split at h
    · cases h
    · next hvalid =>
      cases h
      exact .inr (.inl ⟨_, arrival_identifyProducer hvalid, nofun⟩)
  | flow newNodeId => exact .inr (.inr ⟨newNodeId, rfl, flow_step h⟩)

end Cases

end FindProtocolServer

end OpenmrnCue.CommandStation
