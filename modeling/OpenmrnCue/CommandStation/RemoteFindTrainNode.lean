import OpenmrnCue.Library.Trace
import Mathlib.Algebra.Order.Ring.Int

/-! Searches for trains on the network: `RemoteFindTrainNode` of `FindTrainNode.hxx`.  A flow takes
one request after the other: it sends the query and collects the replies until a timer expires, or
until the next request comes if the request is persistent.  Replies come at any time, and those that
have only an alias wait until a lookup has found the node ID. -/

namespace OpenmrnCue.CommandStation

/-- `RemoteFindTrainNodeRequest` as it is sent; whether there is a `resultCallback`. -/
structure FindRequest where
  event : Nat
  resultCode : Nat
  hasCallback : Bool
deriving DecidableEq, Repr

namespace FindRequest

def defaultRequest : Nat := 0x20000
def persistentRequest : Nat := 0x00103080
def cancelRequest : Nat := 0x00103081
def timeoutSpecified : Nat := 0x10000000

/-- The timeout of the request, in milliseconds. -/
def timeoutMsec (request : FindRequest) : Nat :=
  if request.resultCode &&& timeoutSpecified = timeoutSpecified then
    request.resultCode &&& 0xfffff
  else 200

/-- The request stays until the next one. -/
def IsPersistent (request : FindRequest) : Prop := request.resultCode = persistentRequest

instance (request : FindRequest) : Decidable request.IsPersistent :=
  inferInstanceAs (Decidable (_ = _))

end FindRequest

/-- `NodeHandle`: what is not known is 0. -/
structure NodeHandle where
  id : Nat
  nodeAlias : Nat
deriving DecidableEq, Repr

/-- What `resultCode` is in the end: 0, `ERROR_OPENMRN_NOT_FOUND` or `ERROR_DST_NOT_FOUND`. -/
inductive FindResult where
  | ok
  | openmrnNotFound
  | dstNotFound
deriving DecidableEq, Repr

/-- What happens around the flow, in the order in which it happens. -/
inductive FindRecord (EventState : Type) where
  | started (request : FindRequest)
  | querySent (event timeoutMsec : Nat)
  | identified (event : Nat) (src : NodeHandle) (state : EventState)
  | timeout
  | lookedUp (src : NodeHandle) (nodeId : Nat)
  | called (src : NodeHandle) (state : EventState) (nodeId : Nat)
  | dropped (src : NodeHandle) (state : EventState)
  | notified (result : FindResult) (nodeId : Nat)
deriving DecidableEq, Repr

/-- A request to `nodeIdLookup_`: from `handle_reply`, with what its closure captures, or from
`reply_timeout`. -/
inductive NodeLookup (EventState : Type) where
  | reply (requestId : Nat) (src : NodeHandle) (state : EventState)
  | subflow (src : NodeHandle)
deriving DecidableEq, Repr

/-- The states of the flow; in `sendFindQuery` it waits for a buffer, in `replyTimeout` for the
timer, and in `nodeIdLookupDone` for the lookup. -/
inductive FindPhase where
  | idle
  | sendFindQuery
  | replyTimeout
  | nodeIdLookupDone
deriving DecidableEq, Repr

/-- `RemoteFindTrainNode` with its queue, `request_` of `replyHandler_` (`listening`) and the queue
of `nodeIdLookup_`. -/
structure RemoteFindTrainNode (EventState : Type) where
  queue : List FindRequest := []
  phase : FindPhase := .idle
  message : Option FindRequest := none
  persistentRequest : Option FindRequest := none
  requestId : Nat := 0
  droppedResults : Nat := 0
  listening : Nat := 0
  remoteMatch : NodeHandle := ⟨0, 0⟩
  lookups : List (NodeLookup EventState) := []
  record : List (FindRecord EventState) := []
deriving DecidableEq, Repr

/-- A request that comes, a step of the flow when it has a message, a buffer or its timer has
expired, a message "producer identified", and a lookup that ends; a node ID of 0 says that no node
was found. -/
inductive FindInput (EventState : Type) where
  | send (request : FindRequest)
  | entry
  | sendFindQuery
  | producerIdentified (event : Nat) (src : NodeHandle) (state : EventState)
  | timeout
  | lookupDone (nodeId : Nat)

namespace RemoteFindTrainNode

variable {EventState : Type} (s : RemoteFindTrainNode EventState)

def log (entry : FindRecord EventState) : RemoteFindTrainNode EventState :=
  { s with record := s.record ++ [entry] }

/-- `input`. -/
def input : Option FindRequest := s.persistentRequest.or s.message

/-- `return_with_error`, and `return_ok` with the node ID. -/
def finish (result : FindResult) (nodeId : Nat) : RemoteFindTrainNode EventState :=
  { s.log (.notified result nodeId) with message := none, phase := .idle }

/-- `entry`. -/
def entry : Option (RemoteFindTrainNode EventState) :=
  match s.phase, s.queue with
  | .idle, request :: queue =>
    let s := { s.log (.started request) with
      queue
      requestId := (s.requestId + 1) % 2 ^ 16
      listening := 0
      persistentRequest := none
      message := some request }
    if request.resultCode = FindRequest.cancelRequest then some (s.finish .ok 0)
    else if request.resultCode = FindRequest.persistentRequest then
      some { s with persistentRequest := some request, message := none, phase := .sendFindQuery }
    else some { s with phase := .sendFindQuery }
  | _, _ => none

/-- `send_find_query`. -/
def sendFindQuery : Option (RemoteFindTrainNode EventState) :=
  match s.phase, s.input with
  | .sendFindQuery, some request =>
    some { s.log (.querySent request.event request.timeoutMsec) with
      listening := request.event, remoteMatch := ⟨0, 0⟩, phase := .replyTimeout }
  | _, _ => none

/-- `handle_reply`. -/
def handleReply (src : NodeHandle) (state : EventState) :
    Option (RemoteFindTrainNode EventState) :=
  match s.input with
  | none => none
  | some request =>
    if request.hasCallback then
      if src.id ≠ 0 then some (s.log (.called src state src.id))
      else some { s with lookups := s.lookups ++ [.reply s.requestId src state] }
    else some { s with listening := 0, remoteMatch := src }

/-- `handle_producer_identified`.  The handler is registered for the events of searches and no other
ones, and a message has the node ID or the alias of its sender. -/
def producerIdentified (event : Nat) (src : NodeHandle) (state : EventState) :
    Option (RemoteFindTrainNode EventState) :=
  if event = 0 ∨ src = ⟨0, 0⟩ then none
  else
    let s := s.log (.identified event src state)
    if event = s.listening then s.handleReply src state else some s

/-- "Prevents more wakeups", in `reply_timeout`. -/
def preventWakeups : RemoteFindTrainNode EventState :=
  if s.persistentRequest.isNone then { s with listening := 0 } else s

/-- `reply_timeout`. -/
def replyTimeout : Option (RemoteFindTrainNode EventState) :=
  let s := s.preventWakeups
  match s.input with
  | none => none
  | some request =>
    if request.hasCallback then
      if s.persistentRequest.isNone ∧ s.lookups ≠ [] then some s else some (s.finish .ok 0)
    else if s.remoteMatch.id = 0 ∧ s.remoteMatch.nodeAlias = 0 then
      some (s.finish .openmrnNotFound 0)
    else if s.remoteMatch.id ≠ 0 then some (s.finish .ok s.remoteMatch.id)
    else
      some { s with
        lookups := s.lookups ++ [.subflow s.remoteMatch], phase := .nodeIdLookupDone }

/-- The end of the lookup for a reply. -/
def replyLookedUp (requestId : Nat) (src : NodeHandle) (state : EventState) (nodeId : Nat) :
    RemoteFindTrainNode EventState :=
  if s.requestId ≠ requestId ∨ s.input.isNone then
    { s.log (.dropped src state) with droppedResults := (s.droppedResults + 1) % 2 ^ 16 }
  else s.log (.called src state nodeId)

/-- `node_id_lookup_done`. -/
def nodeIdLookupDone (nodeId : Nat) : Option (RemoteFindTrainNode EventState) :=
  if s.phase = .nodeIdLookupDone then
    if nodeId ≠ 0 then some (s.finish .ok nodeId) else some (s.finish .dstNotFound 0)
  else none

/-- The end of the first lookup. -/
def lookupDone (nodeId : Nat) : Option (RemoteFindTrainNode EventState) :=
  match s.lookups with
  | [] => none
  | .reply requestId src state :: lookups =>
    let s := { s.log (.lookedUp src nodeId) with lookups }
    some (s.replyLookedUp requestId src state nodeId)
  | .subflow src :: lookups =>
    let s := { s.log (.lookedUp src nodeId) with lookups }
    s.nodeIdLookupDone nodeId

def step (s : RemoteFindTrainNode EventState) :
    FindInput EventState → Option (RemoteFindTrainNode EventState)
  | .send request => some { s with queue := s.queue ++ [request] }
  | .entry => s.entry
  | .sendFindQuery => s.sendFindQuery
  | .producerIdentified event src state => s.producerIdentified event src state
  | .timeout => if s.phase = .replyTimeout then (s.log .timeout).replyTimeout else none
  | .lookupDone nodeId => s.lookupDone nodeId

@[simp] theorem log_record (entry : FindRecord EventState) :
    (s.log entry).record = s.record ++ [entry] := rfl
@[simp] theorem log_phase (entry : FindRecord EventState) : (s.log entry).phase = s.phase := rfl
@[simp] theorem log_message (entry : FindRecord EventState) :
    (s.log entry).message = s.message := rfl
@[simp] theorem log_persistentRequest (entry : FindRecord EventState) :
    (s.log entry).persistentRequest = s.persistentRequest := rfl
@[simp] theorem log_requestId (entry : FindRecord EventState) :
    (s.log entry).requestId = s.requestId := rfl
@[simp] theorem log_listening (entry : FindRecord EventState) :
    (s.log entry).listening = s.listening := rfl
@[simp] theorem log_remoteMatch (entry : FindRecord EventState) :
    (s.log entry).remoteMatch = s.remoteMatch := rfl
@[simp] theorem log_lookups (entry : FindRecord EventState) :
    (s.log entry).lookups = s.lookups := rfl
@[simp] theorem log_input (entry : FindRecord EventState) : (s.log entry).input = s.input := rfl

@[simp] theorem preventWakeups_phase : s.preventWakeups.phase = s.phase := by
  unfold preventWakeups
  split <;> rfl

@[simp] theorem preventWakeups_record : s.preventWakeups.record = s.record := by
  unfold preventWakeups
  split <;> rfl

@[simp] theorem preventWakeups_persistentRequest :
    s.preventWakeups.persistentRequest = s.persistentRequest := by
  unfold preventWakeups
  split <;> rfl

end RemoteFindTrainNode

end OpenmrnCue.CommandStation
