import OpenmrnCue.CommandStation.RemoteFindTrainNode
import Mathlib.Data.List.Perm.Basic

/-! What a search for trains has done, and what holds of the flow after every step.  The record of
what happened says to which request a message belongs, and what is due next; the state of
`RemoteFindTrainNode` agrees with it. -/

namespace OpenmrnCue.CommandStation

/-! ### What the record says -/

/-- What a record says of the request that was started last, and of all messages so far: `isOpen`
while replies are accepted, `heard` the messages with the event of the request in that time,
`allHeard` those of all requests that have a callback. -/
structure SearchView (EventState : Type) where
  request : Option FindRequest
  isOpen : Bool
  heard : List (NodeHandle × EventState)
  called : List (NodeHandle × EventState)
  notified : Nat
  allHeard : List (NodeHandle × EventState)
  allCalled : List (NodeHandle × EventState)
  allDropped : List (NodeHandle × EventState)

namespace SearchView

variable {EventState : Type}

def start : SearchView EventState := ⟨none, false, [], [], 0, [], [], []⟩

/-- A message with this event is a reply to the request. -/
def Hears (v : SearchView EventState) (event : Nat) : Prop :=
  v.isOpen = true ∧ ∃ request, v.request = some request ∧ request.event = event

instance (v : SearchView EventState) (event : Nat) : Decidable (v.Hears event) :=
  inferInstanceAs (Decidable (_ ∧ _))

/-- A reply to the request. -/
def hear (v : SearchView EventState) (message : NodeHandle × EventState) : SearchView EventState :=
  { v with
    heard := v.heard ++ [message]
    allHeard := if v.request.any (·.hasCallback) then v.allHeard ++ [message] else v.allHeard }

def add (v : SearchView EventState) : FindRecord EventState → SearchView EventState
  | .started request =>
    { v with
      request := some request, isOpen := false, heard := [], called := [], notified := 0 }
  | .querySent _ _ => { v with isOpen := true }
  | .identified event src state => if v.Hears event then v.hear (src, state) else v
  | .timeout => { v with isOpen := v.isOpen && v.request.any (·.IsPersistent) }
  | .lookedUp _ _ => v
  | .called src state _ =>
    { v with called := v.called ++ [(src, state)], allCalled := v.allCalled ++ [(src, state)] }
  | .dropped src state => { v with allDropped := v.allDropped ++ [(src, state)] }
  | .notified _ _ => { v with notified := v.notified + 1 }

/-- What the record says. -/
def of (record : List (FindRecord EventState)) : SearchView EventState := record.foldl add start

@[simp] theorem of_concat (record : List (FindRecord EventState)) (entry : FindRecord EventState) :
    of (record ++ [entry]) = (of record).add entry := by
  rw [of, List.foldl_append]
  rfl

end SearchView

variable {EventState : Type}

/-- What a request without a callback is answered: the first message that was heard decides, and a
lookup if that message has no node ID. -/
def Answers (heard : List (NodeHandle × EventState)) (last : Option (FindRecord EventState))
    (result : FindResult) (nodeId : Nat) : Prop :=
  match heard.head? with
  | none => result = .openmrnNotFound ∧ nodeId = 0
  | some (src, _) =>
    if src.id ≠ 0 then result = .ok ∧ nodeId = src.id
    else ∃ found, last = some (.lookedUp src found) ∧
      if found ≠ 0 then result = .ok ∧ nodeId = found else result = .dstNotFound ∧ nodeId = 0

/-- An entry of the record is due after what the record says before it, with its last entry `last`.
-/
def Due (v : SearchView EventState) (last : Option (FindRecord EventState)) :
    FindRecord EventState → Prop
  | .called src state nodeId => ∃ request, v.request = some request ∧ request.hasCallback = true ∧
      (src, state) ∈ v.heard ∧ (¬request.IsPersistent → v.notified = 0) ∧
      if src.id ≠ 0 then nodeId = src.id else last = some (.lookedUp src nodeId)
  | .notified result nodeId => ∃ request, v.request = some request ∧ v.notified = 0 ∧
      if request.hasCallback = true ∨ request.resultCode = FindRequest.cancelRequest then
        result = .ok ∧ nodeId = 0 ∧ (¬request.IsPersistent → v.heard.Perm v.called)
      else Answers v.heard last result nodeId
  | .started _ => v.request = none ∨ v.notified = 1
  | .querySent _ _ => True
  | .identified _ _ _ => True
  | .timeout => True
  | .lookedUp _ _ => True
  | .dropped _ _ => True

/-- Every entry of the record is due. -/
def Orderly (record : List (FindRecord EventState)) : Prop :=
  ∀ before entry after, record = before ++ entry :: after →
    Due (.of before) before.getLast? entry

theorem orderly_nil : Orderly ([] : List (FindRecord EventState)) := by
  intro before entry after h
  simp at h

theorem Orderly.concat {record : List (FindRecord EventState)} {entry : FindRecord EventState}
    (h : Orderly record) (hdue : Due (.of record) record.getLast? entry) :
    Orderly (record ++ [entry]) := by
  intro before other after heq
  rcases Trace.concat_eq_append_cons heq with ⟨rfl, rfl, _⟩ | ⟨rest, rfl, _⟩
  · exact hdue
  · exact h before other rest rfl

/-! ### The lookups -/

/-- The message that a lookup is for, if it is for a callback of the request with this id. -/
def NodeLookup.current (requestId : Nat) : NodeLookup EventState → Option (NodeHandle × EventState)
  | .reply other src state => if other = requestId then some (src, state) else none
  | .subflow _ => none

/-- The message that a lookup is for, if it is for a callback. -/
def NodeLookup.message : NodeLookup EventState → Option (NodeHandle × EventState)
  | .reply _ src state => some (src, state)
  | .subflow _ => none

/-- The sender that `reply_timeout` looks up. -/
def NodeLookup.sender : NodeLookup EventState → Option NodeHandle
  | .reply _ _ _ => none
  | .subflow src => some src

namespace RemoteFindTrainNode

/-- What the record says. -/
def view (s : RemoteFindTrainNode EventState) : SearchView EventState := .of s.record

/-- The flow serves `request`, of which the record says `v`. -/
structure Serves (v : SearchView EventState) (s : RemoteFindTrainNode EventState)
    (request : FindRequest) : Prop where
  persistent : s.persistentRequest = if request.IsPersistent then some request else none
  message : s.message =
    if request.IsPersistent ∨ s.phase = .idle then none else some request
  notified : v.notified = if s.phase = .idle then 1 else 0
  listening : s.listening =
    if v.isOpen = true ∧ (request.hasCallback = true ∨ v.heard = []) then request.event else 0
  opened : v.isOpen = true → request.IsPersistent ∨ s.phase = .replyTimeout
  asking : s.phase = .sendFindQuery → v.isOpen = false ∧ v.heard = []
  matched : request.hasCallback = false →
    s.phase = .replyTimeout ∨ s.phase = .nodeIdLookupDone →
    s.remoteMatch = (v.heard.head?.map Prod.fst).getD ⟨0, 0⟩
  looking : s.phase = .nodeIdLookupDone →
    request.hasCallback = false ∧ s.remoteMatch.id = 0 ∧ s.remoteMatch ≠ ⟨0, 0⟩
  pending : request.hasCallback = true →
    v.heard.Perm (v.called ++ s.lookups.filterMap (·.current s.requestId))
  quiet : request.hasCallback = false → s.lookups.filterMap (·.current s.requestId) = []
  waiting : s.lookups.filterMap (·.current s.requestId) ≠ [] →
    request.IsPersistent ∨ s.phase = .replyTimeout
  notCancelled : s.phase ≠ .idle → request.resultCode ≠ FindRequest.cancelRequest
  senders : ∀ message ∈ v.heard, message.1 ≠ ⟨0, 0⟩

/-- What holds of a state of which the record says `v`. -/
structure Agrees (v : SearchView EventState) (s : RemoteFindTrainNode EventState) : Prop where
  aliases : ∀ requestId src state, .reply requestId src state ∈ s.lookups → src.id = 0
  unserved : v.request = none → s.phase = .idle ∧ s.persistentRequest = none ∧
    s.message = none ∧ s.listening = 0 ∧ s.lookups = []
  serves : ∀ request, v.request = some request → Serves v s request
  subflow : s.lookups.filterMap NodeLookup.sender =
    if s.phase = .nodeIdLookupDone then [s.remoteMatch] else []
  accounted : v.allHeard.Perm
    (v.allCalled ++ v.allDropped ++ s.lookups.filterMap NodeLookup.message)
  dropped : s.droppedResults = v.allDropped.length % 2 ^ 16

/-- No reply is looked up for an earlier request with the id that the next request gets. -/
def FreshId (s : RemoteFindTrainNode EventState) : Prop :=
  ∀ lookup ∈ s.lookups, (lookup.current ((s.requestId + 1) % 2 ^ 16)).isNone

instance (s : RemoteFindTrainNode EventState) : Decidable s.FreshId :=
  inferInstanceAs (Decidable (∀ lookup ∈ s.lookups, _))

/-- What holds all the time, as long as each request has an id of its own. -/
structure Sound (s : RemoteFindTrainNode EventState) : Prop where
  orderly : Orderly s.record
  agrees : Agrees s.view s

theorem sound_start : Sound ({} : RemoteFindTrainNode EventState) where
  orderly := orderly_nil
  agrees := {
    aliases := by simp
    unserved := fun _ => ⟨rfl, rfl, rfl, rfl, rfl⟩
    serves := by
      intro request h
      cases h
    subflow := rfl
    accounted := .nil
    dropped := rfl }

variable {v : SearchView EventState} {s t : RemoteFindTrainNode EventState} {request : FindRequest}

theorem view_log (entry : FindRecord EventState) : (s.log entry).view = s.view.add entry :=
  SearchView.of_concat s.record entry

/-- One more entry of the record, and whatever else changes. -/
theorem Sound.concat (h : s.Sound) {entry : FindRecord EventState}
    (hrecord : t.record = s.record ++ [entry]) (hdue : Due s.view s.record.getLast? entry)
    (hagrees : Agrees (s.view.add entry) t) : t.Sound := by
  refine ⟨hrecord ▸ h.orderly.concat hdue, ?_⟩
  rw [view, hrecord, SearchView.of_concat]
  exact hagrees

theorem Serves.input (h : Serves v s request) (hphase : s.phase ≠ .idle ∨ request.IsPersistent) :
    s.input = some request := by
  rw [RemoteFindTrainNode.input, h.persistent, h.message]
  by_cases hpersistent : request.IsPersistent
  · simp [hpersistent]
  · simp [hpersistent, hphase.resolve_right hpersistent]

/-- Whoever is asked for has been started. -/
theorem Agrees.exists_serves (h : Agrees v s) (hbusy : s.phase ≠ .idle ∨ s.listening ≠ 0) :
    ∃ request, v.request = some request ∧ Serves v s request := by
  cases hrequest : v.request with
  | none =>
    obtain ⟨hphase, _, _, hlistening, _⟩ := h.unserved hrequest
    rcases hbusy with hbusy | hbusy
    · exact absurd hphase hbusy
    · exact absurd hlistening hbusy
  | some request => exact ⟨request, rfl, h.serves request hrequest⟩

/-! ### Steps -/

theorem Sound.send (h : s.Sound) (request : FindRequest) :
    Sound { s with queue := s.queue ++ [request] } :=
  ⟨h.orderly, { h.agrees with
    serves := fun request hrequest => { h.agrees.serves request hrequest with } }⟩

/-- The end of a request. -/
theorem Sound.finish (h : s.Sound) (hrequest : s.view.request = some request)
    (hphase : s.phase = .replyTimeout) (hclosed : ¬request.IsPersistent →
      s.view.isOpen = false ∧ s.lookups.filterMap (·.current s.requestId) = [])
    {result : FindResult} {nodeId : Nat}
    (hdue : Due s.view s.record.getLast? (.notified result nodeId)) :
    (s.finish result nodeId).Sound := by
  have hserves := h.agrees.serves request hrequest
  refine h.concat rfl hdue { h.agrees with
    unserved := ?_
    serves := ?_
    subflow := ?_ }
  · rw [SearchView.add, hrequest]
    intro hnone
    cases hnone
  · intro other hother
    rw [SearchView.add, hrequest] at hother
    cases hother
    refine { hserves with
      message := (if_pos (.inr rfl)).symm
      notified := ?_
      opened := ?_
      asking := ?_
      matched := ?_
      looking := ?_
      waiting := ?_
      notCancelled := ?_ }
    · rw [SearchView.add, hserves.notified, hphase]
      rfl
    · intro hopen
      by_contra hnot
      rw [not_or] at hnot
      exact absurd ((hclosed hnot.1).1.symm.trans hopen) (by decide)
    · intro hphase
      cases hphase
    · rintro _ (hphase | hphase) <;> cases hphase
    · intro hphase
      cases hphase
    · intro hpending
      by_contra hnot
      rw [not_or] at hnot
      exact hpending (hclosed hnot.1).2
    · intro hidle
      exact absurd rfl hidle
  · have hsubflow := h.agrees.subflow
    rw [hphase] at hsubflow
    exact hsubflow

/-- The lookups of earlier requests are not for the next one. -/
theorem FreshId.current (h : s.FreshId) :
    s.lookups.filterMap (·.current ((s.requestId + 1) % 2 ^ 16)) = [] :=
  List.filterMap_eq_nil_iff.mpr fun lookup hlookup =>
    Option.isNone_iff_eq_none.mp (h lookup hlookup)

/-- No request is started before the last one has been notified. -/
theorem Agrees.due_started (h : Agrees v s) (hphase : s.phase = .idle)
    {last : Option (FindRecord EventState)} : Due v last (.started request) := by
  cases hrequest : v.request with
  | none => exact .inl hrequest
  | some last =>
    refine .inr ?_
    rw [(h.serves last hrequest).notified, if_pos hphase]

/-- The start of a request that is not cancelled at once. -/
theorem Sound.begin (h : s.Sound) (hphase : s.phase = .idle) (hfresh : s.FreshId)
    (queue : List FindRequest) (hcancel : request.resultCode ≠ FindRequest.cancelRequest) :
    Sound { s.log (.started request) with
      queue
      requestId := (s.requestId + 1) % 2 ^ 16
      listening := 0
      persistentRequest := if request.IsPersistent then some request else none
      message := if request.IsPersistent then none else some request
      phase := .sendFindQuery } := by
  refine h.concat rfl (h.agrees.due_started hphase) {
    aliases := h.agrees.aliases
    unserved := ?_
    serves := ?_
    subflow := ?_
    accounted := h.agrees.accounted
    dropped := h.agrees.dropped }
  · intro hnone
    cases hnone
  · intro other hother
    cases hother
    refine {
      persistent := rfl
      message := ?_
      notified := rfl
      listening := (if_neg ?_).symm
      opened := ?_
      asking := fun _ => ⟨rfl, rfl⟩
      matched := ?_
      looking := ?_
      pending := fun _ => hfresh.current ▸ .nil
      quiet := fun _ => hfresh.current
      waiting := fun hpending => absurd hfresh.current hpending
      notCancelled := fun _ => hcancel
      senders := fun _ h => by cases h }
    · by_cases hpersistent : request.IsPersistent <;> simp [hpersistent]
    · rintro ⟨hopen, _⟩
      cases hopen
    · intro hopen
      cases hopen
    · rintro _ (hphase | hphase) <;> cases hphase
    · intro hphase
      cases hphase
  · have hsubflow := h.agrees.subflow
    rw [hphase] at hsubflow
    exact hsubflow

/-- A request that only cancels the one before it. -/
theorem Sound.cancel (h : s.Sound) (hphase : s.phase = .idle) (hfresh : s.FreshId)
    (queue : List FindRequest) (hcancel : request.resultCode = FindRequest.cancelRequest) :
    (RemoteFindTrainNode.finish { s.log (.started request) with
      queue
      requestId := (s.requestId + 1) % 2 ^ 16
      listening := 0
      persistentRequest := none
      message := some request } .ok 0).Sound := by
  have hpersistent : ¬request.IsPersistent := by
    rw [FindRequest.IsPersistent, hcancel]
    decide
  have hdue : Due (s.log (.started request)).view (s.log (.started request)).record.getLast?
      (.notified .ok 0) := by
    rw [view_log]
    refine ⟨request, rfl, rfl, ?_⟩
    rw [if_pos (.inr hcancel)]
    exact ⟨rfl, rfl, fun _ => .nil⟩
  refine ⟨(h.orderly.concat (h.agrees.due_started hphase)).concat hdue, ?_⟩
  change Agrees ((s.log (.started request)).log (.notified .ok 0)).view _
  rw [view_log, view_log]
  refine {
    aliases := h.agrees.aliases
    unserved := ?_
    serves := ?_
    subflow := ?_
    accounted := h.agrees.accounted
    dropped := h.agrees.dropped }
  · intro hnone
    cases hnone
  · intro other hother
    cases hother
    refine {
      persistent := (if_neg hpersistent).symm
      message := (if_pos (.inr rfl)).symm
      notified := rfl
      listening := (if_neg ?_).symm
      opened := ?_
      asking := ?_
      matched := ?_
      looking := ?_
      pending := fun _ => hfresh.current ▸ .nil
      quiet := fun _ => hfresh.current
      waiting := fun hpending => absurd hfresh.current hpending
      notCancelled := fun hbusy => absurd rfl hbusy
      senders := fun _ h => by cases h }
    · rintro ⟨hopen, _⟩
      cases hopen
    · intro hopen
      cases hopen
    · intro hphase
      cases hphase
    · rintro _ (hphase | hphase) <;> cases hphase
    · intro hphase
      cases hphase
  · have hsubflow := h.agrees.subflow
    rw [hphase] at hsubflow
    exact hsubflow

theorem Sound.entry (h : s.Sound) (hfresh : s.FreshId) (hstep : s.entry = some t) :
    t.Sound := by
  unfold RemoteFindTrainNode.entry at hstep
  split at hstep
  · next request queue hphase hqueue =>
    dsimp only at hstep
    split at hstep
    · next hcancel =>
      cases hstep
      exact h.cancel hphase hfresh queue hcancel
    · next hcancel =>
      have hbegin := h.begin hphase hfresh queue hcancel
      split at hstep
      · next hpersistent =>
        cases hstep
        rw [if_pos (show request.IsPersistent from hpersistent),
          if_pos (show request.IsPersistent from hpersistent)] at hbegin
        exact hbegin
      · next hpersistent =>
        cases hstep
        rw [if_neg (show ¬request.IsPersistent from hpersistent),
          if_neg (show ¬request.IsPersistent from hpersistent)] at hbegin
        exact hbegin
  · cases hstep

/-- The query is sent. -/
theorem Sound.sendFindQuery (h : s.Sound) (hstep : s.sendFindQuery = some t) : t.Sound := by
  unfold RemoteFindTrainNode.sendFindQuery at hstep
  split at hstep
  · next request hphase hinput =>
    cases hstep
    obtain ⟨served, hserved, hserves⟩ := h.agrees.exists_serves (.inl (by rw [hphase]; decide))
    have heq := hserves.input (.inl (by rw [hphase]; decide))
    rw [hinput] at heq
    cases heq
    obtain ⟨_, hheard⟩ := hserves.asking hphase
    refine h.concat rfl trivial { h.agrees with
      unserved := fun hnone => absurd (hserved.symm.trans hnone) (by simp)
      serves := ?_
      subflow := ?_ }
    · intro other hother
      cases hserved.symm.trans hother
      refine { hserves with
        message := ?_
        notified := ?_
        listening := (if_pos ⟨rfl, .inr hheard⟩).symm
        opened := fun _ => .inr rfl
        asking := ?_
        matched := ?_
        looking := ?_
        waiting := fun _ => .inr rfl
        notCancelled := fun _ => hserves.notCancelled (by rw [hphase]; decide) }
      · refine hserves.message.trans ?_
        simp [hphase]
      · refine hserves.notified.trans ?_
        rw [hphase]
        rfl
      · intro hphase
        cases hphase
      · intro _ _
        change _ = (s.view.heard.head?.map Prod.fst).getD ⟨0, 0⟩
        rw [hheard]
        rfl
      · intro hphase
        cases hphase
    · have hsubflow := h.agrees.subflow
      rw [hphase] at hsubflow
      exact hsubflow
  · cases hstep

/-- A message that the flow does not listen for. -/
theorem Sound.ignore (h : s.Sound) {event : Nat} {src : NodeHandle} {state : EventState}
    (hsrc : src ≠ ⟨0, 0⟩) (hevent : event ≠ s.listening) :
    (s.log (.identified event src state)).Sound := by
  refine h.concat rfl trivial ?_
  by_cases hhears : s.view.Hears event
  · obtain ⟨hopen, request, hrequest, rfl⟩ := hhears
    have hserves := h.agrees.serves request hrequest
    have hdeaf : ¬(request.hasCallback = true ∨ s.view.heard = []) := by
      intro hlisten
      exact hevent (hserves.listening.trans (if_pos ⟨hopen, hlisten⟩)).symm
    obtain ⟨hcallback, hheard⟩ := not_or.mp hdeaf
    rw [SearchView.add, if_pos ⟨hopen, request, hrequest, rfl⟩]
    refine { h.agrees with serves := ?_, accounted := ?_ }
    · intro other hother
      cases hrequest.symm.trans hother
      refine { hserves with
        listening := ?_
        asking := ?_
        matched := ?_
        pending := fun h => absurd h hcallback
        senders := ?_ }
      · refine (hserves.listening.trans (if_neg fun h => hdeaf h.2)).trans (if_neg ?_).symm
        simp [hcallback, SearchView.hear]
      · intro hphase
        exact absurd (hserves.asking hphase).2 hheard
      · intro hno hphase
        refine (hserves.matched hno hphase).trans ?_
        rw [SearchView.hear, List.head?_append_of_ne_nil _ hheard]
      · intro message hmessage
        rcases List.mem_append.mp hmessage with hold | hlast
        · exact hserves.senders message hold
        · rw [List.mem_singleton.mp hlast]
          exact hsrc
    · rw [SearchView.hear, hrequest, Option.any_some, if_neg hcallback]
      exact h.agrees.accounted
  · rw [SearchView.add, if_neg hhears]
    exact { h.agrees with
      serves := fun request hrequest => { h.agrees.serves request hrequest with } }

/-- A message to which the flow listens is heard. -/
theorem Agrees.hears (h : Agrees v s) {event : Nat} (hevent : event ≠ 0)
    (hlistening : event = s.listening) : ∃ request, v.request = some request ∧
      request.event = event ∧ v.isOpen = true ∧
      (request.hasCallback = true ∨ v.heard = []) ∧ Serves v s request := by
  obtain ⟨request, hrequest, hserves⟩ := h.exists_serves (.inr (hlistening ▸ hevent))
  have hlisten := hlistening.trans hserves.listening
  split at hlisten
  · next hcond => exact ⟨request, hrequest, hlisten.symm, hcond.1, hcond.2, hserves⟩
  · exact absurd hlisten hevent

theorem Serves.busy (h : Serves v s request) (hopen : v.isOpen = true) :
    s.phase ≠ .idle ∨ request.IsPersistent := by
  rcases h.opened hopen with hpersistent | hphase
  · exact .inr hpersistent
  · exact .inl (by rw [hphase]; decide)

theorem Serves.not_notified (h : Serves v s request) (hopen : v.isOpen = true)
    (hpersistent : ¬request.IsPersistent) : v.notified = 0 := by
  rw [h.notified, if_neg]
  rw [(h.opened hopen).resolve_left hpersistent]
  decide

theorem perm_concat {α : Type} (front back : List α) (x : α) :
    (front ++ back ++ [x]).Perm (front ++ [x] ++ back) := by
  rw [List.append_assoc, List.append_assoc]
  exact List.perm_append_comm.append_left front

theorem perm_move {α : Type} (front middle back : List α) (x : α) :
    (front ++ middle ++ x :: back).Perm (front ++ [x] ++ middle ++ back) := by
  rw [List.append_assoc, List.append_assoc, List.append_assoc]
  exact List.perm_middle.append_left front

/-- A reply with a node ID goes to the callback. -/
theorem Sound.reply (h : s.Sound) {src : NodeHandle} {state : EventState}
    (hrequest : s.view.request = some request) (hopen : s.view.isOpen = true)
    (hcallback : request.hasCallback = true) (hsrc : src.id ≠ 0) :
    ((s.log (.identified request.event src state)).log (.called src state src.id)).Sound := by
  have hserves := h.agrees.serves request hrequest
  have hview : (s.log (.identified request.event src state)).view = s.view.hear (src, state) := by
    rw [view_log, SearchView.add, if_pos ⟨hopen, request, hrequest, rfl⟩]
  have hdue : Due (s.log (.identified request.event src state)).view
      (s.log (.identified request.event src state)).record.getLast?
      (.called src state src.id) := by
    rw [hview]
    refine ⟨request, hrequest, hcallback, by simp [SearchView.hear],
      hserves.not_notified hopen, ?_⟩
    rw [if_pos hsrc]
  have horderly : Orderly (s.log (.identified request.event src state)).record :=
    h.orderly.concat trivial
  refine ⟨horderly.concat hdue, ?_⟩
  rw [view_log, hview]
  refine { h.agrees with serves := ?_, accounted := ?_ }
  · intro other hother
    cases hrequest.symm.trans hother
    refine { hserves with
      listening := ?_
      asking := ?_
      matched := fun hno => absurd (hcallback.symm.trans hno) (by decide)
      pending := ?_
      senders := ?_ }
    · refine (hserves.listening.trans (if_pos ⟨hopen, .inl hcallback⟩)).trans ?_
      exact (if_pos ⟨hopen, .inl hcallback⟩).symm
    · intro hphase
      exact absurd ((hserves.asking hphase).1.symm.trans hopen) (by decide)
    · intro _
      exact ((hserves.pending hcallback).append_right [(src, state)]).trans (perm_concat _ _ _)
    · intro message hmessage
      rcases List.mem_append.mp hmessage with hold | hlast
      · exact hserves.senders message hold
      · rw [List.mem_singleton.mp hlast]
        rintro rfl
        exact hsrc rfl
  · have hheard : ((s.view.hear (src, state)).add (.called src state src.id)).allHeard =
        s.view.allHeard ++ [(src, state)] := by
      rw [SearchView.add, SearchView.hear, hrequest, Option.any_some, if_pos hcallback]
    have haccounted := h.agrees.accounted
    rw [List.append_assoc] at haccounted
    rw [hheard, List.append_assoc]
    exact (haccounted.append_right [(src, state)]).trans (perm_concat _ _ _)

/-- A reply with an alias waits for the lookup. -/
theorem Sound.replyLater (h : s.Sound) {src : NodeHandle} {state : EventState}
    (hrequest : s.view.request = some request) (hopen : s.view.isOpen = true)
    (hcallback : request.hasCallback = true) (hid : src.id = 0) (hsrc : src ≠ ⟨0, 0⟩) :
    Sound { s.log (.identified request.event src state) with
      lookups := s.lookups ++ [.reply s.requestId src state] } := by
  have hserves := h.agrees.serves request hrequest
  refine h.concat rfl trivial ?_
  rw [SearchView.add, if_pos ⟨hopen, request, hrequest, rfl⟩]
  have hcurrent : (s.lookups ++ [NodeLookup.reply s.requestId src state]).filterMap
      (NodeLookup.current s.requestId) =
      s.lookups.filterMap (NodeLookup.current s.requestId) ++ [(src, state)] := by
    simp [NodeLookup.current]
  refine { h.agrees with
    aliases := ?_
    unserved := ?_
    serves := ?_
    subflow := ?_
    accounted := ?_ }
  · intro requestId other otherState hlookup
    rcases List.mem_append.mp hlookup with hold | hlast
    · exact h.agrees.aliases requestId other otherState hold
    · cases List.mem_singleton.mp hlast
      exact hid
  · intro hnone
    cases hrequest.symm.trans hnone
  · intro other hother
    cases hrequest.symm.trans hother
    refine { hserves with
      listening := ?_
      asking := ?_
      matched := fun hno => absurd (hcallback.symm.trans hno) (by decide)
      pending := ?_
      quiet := fun hno => absurd (hcallback.symm.trans hno) (by decide)
      waiting := fun _ => hserves.opened hopen
      senders := ?_ }
    · refine (hserves.listening.trans (if_pos ⟨hopen, .inl hcallback⟩)).trans ?_
      exact (if_pos ⟨hopen, .inl hcallback⟩).symm
    · intro hphase
      exact absurd ((hserves.asking hphase).1.symm.trans hopen) (by decide)
    · intro _
      refine ((hserves.pending hcallback).append_right [(src, state)]).trans ?_
      rw [List.append_assoc]
      exact (List.Perm.of_eq hcurrent.symm).append_left _
    · intro message hmessage
      rcases List.mem_append.mp hmessage with hold | hlast
      · exact hserves.senders message hold
      · rw [List.mem_singleton.mp hlast]
        exact hsrc
  · refine Eq.trans ?_ h.agrees.subflow
    simp [NodeLookup.sender]
  · have hheard : (s.view.hear (src, state)).allHeard = s.view.allHeard ++ [(src, state)] := by
      rw [SearchView.hear, hrequest, Option.any_some, if_pos hcallback]
    rw [hheard]
    refine (h.agrees.accounted.append_right [(src, state)]).trans ?_
    rw [List.append_assoc]
    exact (List.Perm.of_eq (by simp [NodeLookup.message])).append_left _

/-- The first reply to a request without a callback is kept, and no further one is listened for. -/
theorem Sound.keepReply (h : s.Sound) {src : NodeHandle} {state : EventState}
    (hrequest : s.view.request = some request) (hopen : s.view.isOpen = true)
    (hcallback : request.hasCallback = false) (hheard : s.view.heard = []) (hsrc : src ≠ ⟨0, 0⟩) :
    Sound { s.log (.identified request.event src state) with
      listening := 0, remoteMatch := src } := by
  have hserves := h.agrees.serves request hrequest
  refine h.concat rfl trivial ?_
  rw [SearchView.add, if_pos ⟨hopen, request, hrequest, rfl⟩]
  -- the flow does not look up a sender that it has not heard of
  have hphase : s.phase ≠ .nodeIdLookupDone := by
    intro hphase
    obtain ⟨_, _, hmatch⟩ := hserves.looking hphase
    refine hmatch ?_
    rw [hserves.matched hcallback (.inr hphase), hheard]
    rfl
  refine { h.agrees with unserved := ?_, serves := ?_, subflow := ?_, accounted := ?_ }
  · intro hnone
    cases hrequest.symm.trans hnone
  · intro other hother
    cases hrequest.symm.trans hother
    refine { hserves with
      listening := ?_
      asking := ?_
      matched := ?_
      looking := fun h => absurd h hphase
      pending := fun hyes => absurd (hcallback.symm.trans hyes) (by decide)
      senders := ?_ }
    · refine (if_neg ?_).symm
      simp [SearchView.hear, hcallback]
    · intro hphase
      exact absurd ((hserves.asking hphase).1.symm.trans hopen) (by decide)
    · intro _ _
      simp [SearchView.hear, hheard]
    · intro message hmessage
      rw [SearchView.hear, hheard, List.nil_append, List.mem_singleton] at hmessage
      rw [hmessage]
      exact hsrc
  · refine (h.agrees.subflow.trans (if_neg hphase)).trans (if_neg hphase).symm
  · rw [SearchView.hear, hrequest, Option.any_some, hcallback]
    exact h.agrees.accounted

theorem Sound.producerIdentified (h : s.Sound) {event : Nat} {src : NodeHandle}
    {state : EventState} (hstep : s.producerIdentified event src state = some t) : t.Sound := by
  unfold RemoteFindTrainNode.producerIdentified at hstep
  split at hstep
  · cases hstep
  · next hvalid =>
    obtain ⟨hevent, hsrc⟩ := not_or.mp hvalid
    dsimp only at hstep
    split at hstep
    · next hlistening =>
      obtain ⟨request, hrequest, rfl, hopen, hlisten, hserves⟩ := h.agrees.hears hevent hlistening
      have hinput := hserves.input (hserves.busy hopen)
      unfold RemoteFindTrainNode.handleReply at hstep
      rw [log_input, hinput] at hstep
      dsimp only at hstep
      split at hstep
      · next hcallback =>
        split at hstep
        · next hid =>
          cases hstep
          exact h.reply hrequest hopen hcallback hid
        · next hid =>
          cases hstep
          exact h.replyLater hrequest hopen hcallback (not_not.mp hid) hsrc
      · next hcallback =>
        cases hstep
        rw [Bool.not_eq_true] at hcallback
        have hheard := hlisten.resolve_left (by simp [hcallback])
        exact h.keepReply hrequest hopen hcallback hheard hsrc
    · next hlistening =>
      cases hstep
      exact h.ignore hsrc hlistening

/-- The timer has expired: a request that is not persistent hears no more replies. -/
theorem Sound.expire (h : s.Sound) (hrequest : s.view.request = some request)
    (hphase : s.phase = .replyTimeout) : (s.log .timeout).preventWakeups.Sound := by
  have hserves := h.agrees.serves request hrequest
  refine h.concat (preventWakeups_record _) trivial ?_
  by_cases hpersistent : request.IsPersistent
  · have hstays : (s.log .timeout).preventWakeups = s.log .timeout := if_neg (by
      rw [log_persistentRequest, hserves.persistent, if_pos hpersistent]
      simp)
    have hopen : (s.view.add .timeout).isOpen = s.view.isOpen := by
      rw [SearchView.add, hrequest, Option.any_some, decide_eq_true hpersistent, Bool.and_true]
    rw [hstays]
    refine { h.agrees with serves := ?_ }
    intro other hother
    refine { h.agrees.serves other hother with listening := ?_, opened := ?_, asking := ?_ }
    · rw [hopen]
      exact (h.agrees.serves other hother).listening
    · rw [hopen]
      exact (h.agrees.serves other hother).opened
    · rw [hopen]
      exact (h.agrees.serves other hother).asking
  · have hstops : (s.log .timeout).preventWakeups = { s.log .timeout with listening := 0 } :=
      if_pos (by
        rw [log_persistentRequest, hserves.persistent, if_neg hpersistent]
        rfl)
    have hclosed : (s.view.add .timeout).isOpen = false := by
      rw [SearchView.add, hrequest, Option.any_some, decide_eq_false hpersistent, Bool.and_false]
    rw [hstops]
    refine { h.agrees with unserved := ?_, serves := ?_ }
    · intro hnone
      cases hrequest.symm.trans hnone
    · intro other hother
      cases hrequest.symm.trans hother
      refine { hserves with
        listening := (if_neg ?_).symm
        opened := ?_
        asking := ?_ }
      · rintro ⟨hopen, _⟩
        exact absurd (hclosed.symm.trans hopen) (by decide)
      · intro hopen
        exact absurd (hclosed.symm.trans hopen) (by decide)
      · intro hasking
        cases hphase.symm.trans hasking

/-- The flow waits for the node ID of the sender that it has heard. -/
theorem Sound.lookUpMatch (h : s.Sound) (hrequest : s.view.request = some request)
    (hphase : s.phase = .replyTimeout) (hclosed : ¬request.IsPersistent → s.view.isOpen = false)
    (hcallback : request.hasCallback = false) (hid : s.remoteMatch.id = 0)
    (hmatch : s.remoteMatch ≠ ⟨0, 0⟩) :
    Sound { s with
      lookups := s.lookups ++ [.subflow s.remoteMatch], phase := .nodeIdLookupDone } := by
  have hserves := h.agrees.serves request hrequest
  have hcurrent : (s.lookups ++ [NodeLookup.subflow s.remoteMatch]).filterMap
      (NodeLookup.current s.requestId) = [] := by
    simpa [NodeLookup.current] using hserves.quiet hcallback
  have hmessages : (s.lookups ++ [NodeLookup.subflow s.remoteMatch]).filterMap NodeLookup.message =
      s.lookups.filterMap NodeLookup.message := by
    simp [NodeLookup.message]
  refine ⟨h.orderly, { h.agrees with
    aliases := ?_
    unserved := ?_
    serves := ?_
    subflow := ?_
    accounted := h.agrees.accounted.trans (.of_eq (congrArg _ hmessages.symm)) }⟩
  · intro requestId src state hlookup
    rcases List.mem_append.mp hlookup with hold | hlast
    · exact h.agrees.aliases requestId src state hold
    · cases List.mem_singleton.mp hlast
  · intro hnone
    cases hrequest.symm.trans hnone
  · intro other hother
    cases hrequest.symm.trans hother
    refine { hserves with
      message := ?_
      notified := ?_
      opened := ?_
      asking := ?_
      matched := fun hno _ => hserves.matched hno (.inl hphase)
      looking := fun _ => ⟨hcallback, hid, hmatch⟩
      pending := fun hyes => absurd (hcallback.symm.trans hyes) (by decide)
      quiet := fun _ => hcurrent
      waiting := fun hpending => absurd hcurrent hpending
      notCancelled := fun _ => hserves.notCancelled (by rw [hphase]; decide) }
    · refine hserves.message.trans ?_
      simp [hphase]
    · refine hserves.notified.trans ?_
      rw [hphase]
      rfl
    · intro hopen
      by_contra hnot
      rw [not_or] at hnot
      exact absurd ((hclosed hnot.1).symm.trans hopen) (by decide)
    · intro hasking
      cases hasking
  · have hsubflow := h.agrees.subflow
    rw [hphase, if_neg (by decide)] at hsubflow
    rw [if_pos rfl, List.filterMap_append, hsubflow]
    rfl

/-- What a request without a callback is answered when the timer has expired. -/
theorem Serves.answers (h : Serves v s request) (hphase : s.phase = .replyTimeout)
    (hcallback : request.hasCallback = false) (last : Option (FindRecord EventState)) :
    (s.remoteMatch = ⟨0, 0⟩ → Answers v.heard last .openmrnNotFound 0) ∧
    (s.remoteMatch.id ≠ 0 → Answers v.heard last .ok s.remoteMatch.id) := by
  have hmatched := h.matched hcallback (.inl hphase)
  rw [Answers, Answers, hmatched]
  cases hhead : v.heard.head? with
  | none => exact ⟨fun _ => ⟨rfl, rfl⟩, fun hid => absurd rfl hid⟩
  | some message =>
    have hsrc : message.1 ≠ ⟨0, 0⟩ := h.senders message (List.mem_of_mem_head? hhead)
    refine ⟨fun hzero => absurd hzero hsrc, fun hid => ?_⟩
    exact (if_pos hid).mpr ⟨rfl, rfl⟩

/-- The end of the time for replies, when none of them is looked up any more. -/
theorem Sound.finishCallbacks (h : s.Sound) (hrequest : s.view.request = some request)
    (hphase : s.phase = .replyTimeout) (hcallback : request.hasCallback = true)
    (hclosed : ¬request.IsPersistent → s.view.isOpen = false ∧ s.lookups = []) :
    (s.finish .ok 0).Sound := by
  have hserves := h.agrees.serves request hrequest
  have hcurrent : ¬request.IsPersistent → s.lookups.filterMap (·.current s.requestId) = [] := by
    intro hpersistent
    rw [(hclosed hpersistent).2]
    rfl
  refine h.finish hrequest hphase (fun hp => ⟨(hclosed hp).1, hcurrent hp⟩) ?_
  refine ⟨request, hrequest, ?_, ?_⟩
  · rw [hserves.notified, hphase]
    rfl
  · rw [if_pos (.inl hcallback)]
    refine ⟨rfl, rfl, fun hpersistent => ?_⟩
    have hpending := hserves.pending hcallback
    rwa [hcurrent hpersistent, List.append_nil] at hpending

/-- The answer to a request without a callback. -/
theorem Sound.finishMatch (h : s.Sound) (hrequest : s.view.request = some request)
    (hphase : s.phase = .replyTimeout) (hcallback : request.hasCallback = false)
    (hclosed : ¬request.IsPersistent → s.view.isOpen = false) {result : FindResult} {nodeId : Nat}
    (hanswers : Answers s.view.heard s.record.getLast? result nodeId) :
    (s.finish result nodeId).Sound := by
  have hserves := h.agrees.serves request hrequest
  refine h.finish hrequest hphase (fun hp => ⟨hclosed hp, hserves.quiet hcallback⟩) ?_
  refine ⟨request, hrequest, ?_, ?_⟩
  · rw [hserves.notified, hphase]
    rfl
  · have hcancel := hserves.notCancelled (by rw [hphase]; decide)
    rw [if_neg (by simp [hcallback, hcancel])]
    exact hanswers

/-- The flow goes on when the timer has expired. -/
theorem Sound.replyTimeout (h : s.Sound) (hphase : s.phase = .replyTimeout)
    (hstep : (s.log .timeout).replyTimeout = some t) : t.Sound := by
  obtain ⟨request, hrequest, hserves⟩ := h.agrees.exists_serves (.inl (by rw [hphase]; decide))
  have hexpired := h.expire hrequest hphase
  have hview : (s.log .timeout).preventWakeups.view = s.view.add .timeout := by
    rw [view, preventWakeups_record, ← view, view_log]
  have hclosed : ¬request.IsPersistent → (s.view.add .timeout).isOpen = false := by
    intro hpersistent
    rw [SearchView.add, hrequest, Option.any_some, decide_eq_false hpersistent, Bool.and_false]
  have hnone : (s.log .timeout).preventWakeups.persistentRequest.isNone = true ↔
      ¬request.IsPersistent := by
    rw [preventWakeups_persistentRequest, log_persistentRequest, hserves.persistent]
    by_cases hpersistent : request.IsPersistent <;> simp [hpersistent]
  have hphase : (s.log .timeout).preventWakeups.phase = .replyTimeout := by simpa using hphase
  replace hrequest : (s.log .timeout).preventWakeups.view.request = some request := by
    rw [hview]
    exact hrequest
  rw [← hview] at hclosed
  unfold RemoteFindTrainNode.replyTimeout at hstep
  dsimp only at hstep
  generalize (s.log .timeout).preventWakeups = e at *
  have hserves := hexpired.agrees.serves request hrequest
  rw [hserves.input (.inl (by rw [hphase]; decide))] at hstep
  dsimp only at hstep
  split at hstep
  · next hcallback =>
    split at hstep
    · cases hstep
      exact hexpired
    · next hwaits =>
      cases hstep
      refine hexpired.finishCallbacks hrequest hphase hcallback fun hpersistent => ?_
      refine ⟨hclosed hpersistent, ?_⟩
      by_contra hlookups
      exact hwaits ⟨hnone.mpr hpersistent, hlookups⟩
  · next hcallback =>
    rw [Bool.not_eq_true] at hcallback
    have hanswers := hserves.answers hphase hcallback e.record.getLast?
    split at hstep
    · next hzero =>
      cases hstep
      refine hexpired.finishMatch hrequest hphase hcallback hclosed (hanswers.1 ?_)
      cases hmatch : e.remoteMatch with
      | mk id nodeAlias =>
        rw [hmatch] at hzero
        dsimp only at hzero
        rw [hzero.1, hzero.2]
    · next hzero =>
      split at hstep
      · next hid =>
        cases hstep
        exact hexpired.finishMatch hrequest hphase hcallback hclosed (hanswers.2 hid)
      · next hid =>
        cases hstep
        refine hexpired.lookUpMatch hrequest hphase hclosed hcallback (not_not.mp hid) ?_
        intro hmatch
        exact hzero (by rw [hmatch]; exact ⟨rfl, rfl⟩)

/-- A reply is looked up for a request that is still there. -/
theorem Agrees.wanted (h : Agrees v s) {src : NodeHandle} {state : EventState}
    {lookups : List (NodeLookup EventState)}
    (hlookups : s.lookups = .reply s.requestId src state :: lookups) :
    ∃ request, v.request = some request ∧ s.input = some request := by
  cases hrequest : v.request with
  | none =>
    have hempty := (h.unserved hrequest).2.2.2.2
    rw [hlookups] at hempty
    cases hempty
  | some request =>
    have hserves := h.serves request hrequest
    have hwaiting := hserves.waiting (by simp [hlookups, NodeLookup.current])
    refine ⟨request, rfl, hserves.input ?_⟩
    rcases hwaiting with hpersistent | hphase
    · exact .inr hpersistent
    · exact .inl (by rw [hphase]; decide)

/-- The end of a lookup for a reply that is still wanted. -/
theorem Sound.deliver (h : s.Sound) {src : NodeHandle} {state : EventState}
    {lookups : List (NodeLookup EventState)}
    (hlookups : s.lookups = .reply s.requestId src state :: lookups)
    (hrequest : s.view.request = some request) (nodeId : Nat) :
    Sound { (s.log (.lookedUp src nodeId)).log (.called src state nodeId) with lookups } := by
  have hserves := h.agrees.serves request hrequest
  have hid := h.agrees.aliases s.requestId src state (by simp [hlookups])
  have hcurrent : s.lookups.filterMap (·.current s.requestId) =
      (src, state) :: lookups.filterMap (·.current s.requestId) := by
    rw [hlookups, List.filterMap_cons]
    simp [NodeLookup.current]
  have hcallback : request.hasCallback = true := by
    by_contra hno
    have hquiet := hserves.quiet (Bool.not_eq_true _ ▸ hno)
    exact absurd (hcurrent.symm.trans hquiet) (by simp)
  have hpending := hserves.pending hcallback
  rw [hcurrent] at hpending
  have hwaiting := hserves.waiting (by simp [hcurrent])
  have hdue : Due (s.log (.lookedUp src nodeId)).view (s.log (.lookedUp src nodeId)).record.getLast?
      (.called src state nodeId) := by
    rw [view_log]
    refine ⟨request, hrequest, hcallback, hpending.mem_iff.mpr (by simp), ?_, ?_⟩
    · intro hpersistent
      rw [SearchView.add, hserves.notified, hwaiting.resolve_left hpersistent]
      rfl
    · rw [if_neg (not_not.mpr hid)]
      simp
  have horderly : Orderly (s.log (.lookedUp src nodeId)).record := h.orderly.concat trivial
  refine ⟨horderly.concat hdue, ?_⟩
  change Agrees ((s.log (.lookedUp src nodeId)).log (.called src state nodeId)).view _
  rw [view_log, view_log]
  refine { h.agrees with
    aliases := ?_
    unserved := ?_
    serves := ?_
    subflow := ?_
    accounted := ?_ }
  · intro requestId other otherState hlookup
    refine h.agrees.aliases requestId other otherState ?_
    rw [hlookups]
    exact .tail _ hlookup
  · intro hnone
    cases hrequest.symm.trans hnone
  · intro other hother
    cases hrequest.symm.trans hother
    refine { hserves with
      matched := fun hno => absurd (hcallback.symm.trans hno) (by decide)
      pending := ?_
      quiet := fun hno => absurd (hcallback.symm.trans hno) (by decide)
      waiting := fun _ => hwaiting }
    intro _
    refine hpending.trans ?_
    rw [List.append_cons]
    exact .refl _
  · refine Eq.trans ?_ h.agrees.subflow
    rw [hlookups]
    rfl
  · have haccounted := h.agrees.accounted
    rw [hlookups] at haccounted
    exact haccounted.trans (perm_move _ _ _ _)

/-- The end of a lookup for a reply that is not wanted any more. -/
theorem Sound.drop (h : s.Sound) {requestId : Nat} {src : NodeHandle} {state : EventState}
    {lookups : List (NodeLookup EventState)}
    (hlookups : s.lookups = .reply requestId src state :: lookups)
    (hstale : s.requestId ≠ requestId) (nodeId : Nat) :
    Sound { (s.log (.lookedUp src nodeId)).log (.dropped src state) with
      lookups, droppedResults := (s.droppedResults + 1) % 2 ^ 16 } := by
  have horderly : Orderly (s.log (.lookedUp src nodeId)).record := h.orderly.concat trivial
  have hcurrent : s.lookups.filterMap (·.current s.requestId) =
      lookups.filterMap (·.current s.requestId) := by
    rw [hlookups, List.filterMap_cons, NodeLookup.current, if_neg (Ne.symm hstale)]
  refine ⟨horderly.concat trivial, ?_⟩
  change Agrees ((s.log (.lookedUp src nodeId)).log (.dropped src state)).view _
  rw [view_log, view_log]
  refine { h.agrees with
    aliases := ?_
    unserved := ?_
    serves := ?_
    subflow := ?_
    accounted := ?_
    dropped := ?_ }
  · intro other otherSrc otherState hlookup
    refine h.agrees.aliases other otherSrc otherState ?_
    rw [hlookups]
    exact .tail _ hlookup
  · intro hnone
    have hempty := (h.agrees.unserved hnone).2.2.2.2
    rw [hlookups] at hempty
    cases hempty
  · intro request hrequest
    have hserves := h.agrees.serves request hrequest
    refine { hserves with
      pending := fun hcallback => hcurrent ▸ hserves.pending hcallback
      quiet := fun hcallback => hcurrent ▸ hserves.quiet hcallback
      waiting := fun hwaiting => hserves.waiting (hcurrent ▸ hwaiting) }
  · refine Eq.trans ?_ h.agrees.subflow
    rw [hlookups]
    rfl
  · have haccounted := h.agrees.accounted
    rw [hlookups] at haccounted
    refine haccounted.trans (.of_eq ?_)
    simp [SearchView.add, NodeLookup.message]
  · have hlength : (s.view.add (.dropped src state)).allDropped.length =
        s.view.allDropped.length + 1 := by
      simp [SearchView.add]
    change (s.droppedResults + 1) % 2 ^ 16 = (s.view.add (.dropped src state)).allDropped.length %
      2 ^ 16
    rw [hlength, h.agrees.dropped, Nat.mod_add_mod]

/-- The end of the lookup for the answer to a request without a callback. -/
theorem Sound.lookUpDone (h : s.Sound) {src : NodeHandle} {lookups : List (NodeLookup EventState)}
    (hlookups : s.lookups = .subflow src :: lookups) (nodeId : Nat)
    (hphase : s.phase = .nodeIdLookupDone) :
    Sound { s.log (.lookedUp src nodeId) with lookups, phase := .replyTimeout } := by
  obtain ⟨request, hrequest, hserves⟩ := h.agrees.exists_serves (.inl (by rw [hphase]; decide))
  obtain ⟨hcallback, _, _⟩ := hserves.looking hphase
  have hcurrent : lookups.filterMap (·.current s.requestId) = [] := by
    have hquiet := hserves.quiet hcallback
    rwa [hlookups] at hquiet
  have hsubflow := h.agrees.subflow
  rw [hphase, if_pos rfl, hlookups] at hsubflow
  refine h.concat rfl trivial { h.agrees with
    aliases := ?_
    unserved := ?_
    serves := ?_
    subflow := ?_
    accounted := ?_ }
  · intro other otherSrc otherState hlookup
    refine h.agrees.aliases other otherSrc otherState ?_
    rw [hlookups]
    exact .tail _ hlookup
  · intro hnone
    cases hrequest.symm.trans hnone
  · intro other hother
    cases hrequest.symm.trans hother
    refine { hserves with
      message := ?_
      notified := ?_
      opened := fun hopen => .inr rfl
      asking := ?_
      matched := fun hno _ => hserves.matched hno (.inr hphase)
      looking := ?_
      pending := fun hyes => absurd (hcallback.symm.trans hyes) (by decide)
      quiet := fun _ => hcurrent
      waiting := fun hpending => absurd hcurrent hpending
      notCancelled := fun _ => hserves.notCancelled (by rw [hphase]; decide) }
    · refine hserves.message.trans ?_
      simp [hphase]
    · refine hserves.notified.trans ?_
      rw [hphase]
      rfl
    · intro hasking
      cases hasking
    · intro hlooking
      cases hlooking
  · exact (List.cons.inj hsubflow).2
  · have haccounted := h.agrees.accounted
    rw [hlookups] at haccounted
    exact haccounted

/-- What a request without a callback is answered when the lookup ends. -/
theorem Agrees.answers (h : Agrees v s) {src : NodeHandle} {lookups : List (NodeLookup EventState)}
    (hlookups : s.lookups = .subflow src :: lookups) (hphase : s.phase = .nodeIdLookupDone)
    (nodeId : Nat) : ∃ request, v.request = some request ∧ request.hasCallback = false ∧
      (nodeId ≠ 0 → Answers v.heard (some (.lookedUp src nodeId)) .ok nodeId) ∧
      (nodeId = 0 → Answers v.heard (some (.lookedUp src nodeId)) .dstNotFound 0) := by
  obtain ⟨request, hrequest, hserves⟩ := h.exists_serves (.inl (by rw [hphase]; decide))
  obtain ⟨hcallback, hid, hmatch⟩ := hserves.looking hphase
  have hmatched := hserves.matched hcallback (.inr hphase)
  have hsubflow := h.subflow
  rw [hphase, if_pos rfl, hlookups] at hsubflow
  have hsrc : src = s.remoteMatch := (List.cons.inj hsubflow).1
  refine ⟨request, hrequest, hcallback, ?_⟩
  rw [Answers, Answers]
  cases hhead : v.heard.head? with
  | none =>
    rw [hhead] at hmatched
    exact absurd hmatched hmatch
  | some message =>
    rw [hhead] at hmatched
    have hfirst : message.1 = src := hmatched.symm.trans hsrc.symm
    have hzero : ¬message.1.id ≠ 0 := by rw [hfirst, hsrc]; exact not_not.mpr hid
    refine ⟨fun hfound => (if_neg hzero).mpr ?_, fun hfound => (if_neg hzero).mpr ?_⟩
    · exact ⟨nodeId, by rw [hfirst], (if_pos hfound).mpr ⟨rfl, rfl⟩⟩
    · exact ⟨nodeId, by rw [hfirst], (if_neg (not_not.mpr hfound)).mpr ⟨rfl, rfl⟩⟩

theorem Sound.lookupDone (h : s.Sound) {nodeId : Nat} (hstep : s.lookupDone nodeId = some t) :
    t.Sound := by
  unfold RemoteFindTrainNode.lookupDone at hstep
  split at hstep
  · cases hstep
  · next requestId src state lookups hlookups =>
    cases hstep
    unfold RemoteFindTrainNode.replyLookedUp
    by_cases hstale : s.requestId = requestId
    · cases hstale
      obtain ⟨request, hrequest, hinput⟩ := h.agrees.wanted hlookups
      rw [if_neg]
      · exact h.deliver hlookups hrequest nodeId
      · rintro (hstale | hnone)
        · exact hstale rfl
        · exact absurd (congrArg Option.isNone hinput |>.symm.trans hnone) (by simp)
    · rw [if_pos (.inl hstale)]
      exact h.drop hlookups hstale nodeId
  · next src lookups hlookups =>
    dsimp only at hstep
    unfold RemoteFindTrainNode.nodeIdLookupDone at hstep
    split at hstep
    · next hphase =>
      obtain ⟨request, hrequest, hcallback, hfound, hmissing⟩ :=
        h.agrees.answers hlookups hphase nodeId
      have hdone := h.lookUpDone hlookups nodeId hphase
      have hview : SearchView.of (s.log (.lookedUp src nodeId)).record = s.view :=
        view_log (.lookedUp src nodeId)
      have hserved : (SearchView.of (s.log (.lookedUp src nodeId)).record).request = some request :=
        by rw [hview]; exact hrequest
      have hclosed : ¬request.IsPersistent →
          (SearchView.of (s.log (.lookedUp src nodeId)).record).isOpen = false := by
        intro hpersistent
        by_contra hopen
        rw [Bool.not_eq_false, hview] at hopen
        have hopened := (h.agrees.serves request hrequest).opened hopen
        exact absurd ((hopened.resolve_left hpersistent).symm.trans hphase) (by decide)
      have hlast : (s.log (.lookedUp src nodeId)).record.getLast? =
          some (.lookedUp src nodeId) := by
        simp
      rw [← hview, ← hlast] at hfound hmissing
      split at hstep
      · next hid =>
        cases hstep
        exact hdone.finishMatch hserved rfl hcallback hclosed (hfound hid)
      · next hid =>
        cases hstep
        exact hdone.finishMatch hserved rfl hcallback hclosed (hmissing (not_not.mp hid))
    · cases hstep

end RemoteFindTrainNode

end OpenmrnCue.CommandStation
