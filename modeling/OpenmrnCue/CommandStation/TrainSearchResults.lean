import OpenmrnCue.CommandStation.TrainSearchSteps

/-! Results of train searches.  Whatever comes in between, each request is notified once, before the
next one is started; a callback is only made for a message that came in the time of its own request;
and every message that is heard is delivered once, is still being looked up, or is dropped because
the next request has been started. -/

namespace OpenmrnCue.CommandStation

variable {EventState : Type}

/-- A request is started. -/
def FindInput.isEntry : FindInput EventState → Bool
  | .entry => true
  | _ => false

namespace RemoteFindTrainNode

variable {s t : RemoteFindTrainNode EventState}

/-- A request is only started while it gets an id of its own. -/
def StartsFresh (s : RemoteFindTrainNode EventState) : FindInput EventState → Prop
  | .entry => s.FreshId
  | _ => True

instance (s : RemoteFindTrainNode EventState) :
    (i : FindInput EventState) → Decidable (s.StartsFresh i)
  | .entry => inferInstanceAs (Decidable s.FreshId)
  | .send _ => isTrue trivial
  | .sendFindQuery => isTrue trivial
  | .producerIdentified _ _ _ => isTrue trivial
  | .timeout => isTrue trivial
  | .lookupDone _ => isTrue trivial

theorem Sound.step (h : s.Sound) {i : FindInput EventState} (hfresh : s.StartsFresh i)
    (hstep : s.step i = some t) : t.Sound := by
  cases i with
  | send request =>
    cases hstep
    exact h.send request
  | entry => exact h.entry hfresh hstep
  | sendFindQuery => exact h.sendFindQuery hstep
  | producerIdentified event src state => exact h.producerIdentified hstep
  | timeout =>
    rw [RemoteFindTrainNode.step] at hstep
    split at hstep
    · next hphase => exact h.replyTimeout hphase hstep
    · cases hstep
  | lookupDone nodeId => exact h.lookupDone hstep

theorem sound_of_run {history : List (FindInput EventState)}
    (hfresh : Trace.EachStep RemoteFindTrainNode.step (fun _ s i _ => s.StartsFresh i) {} history)
    (hrun : Trace.run RemoteFindTrainNode.step {} history = some s) : s.Sound :=
  Trace.invariant (I := fun _ s => s.Sound) sound_start
    (fun _ _ _ _ _ h hfresh hstep => h.step hfresh hstep) hfresh hrun

/-- The replies that `t` looks up are those of `s`, and others with the id of `s`. -/
def LooksUpFrom (s t : RemoteFindTrainNode EventState) : Prop :=
  ∀ requestId src state, .reply requestId src state ∈ t.lookups →
    .reply requestId src state ∈ s.lookups ∨ requestId = s.requestId

theorem LooksUpFrom.of_subset (h : t.lookups ⊆ s.lookups) : LooksUpFrom s t :=
  fun _ _ _ hlookup => .inl (h hlookup)

theorem producerIdentified_requestId {event : Nat} {src : NodeHandle} {state : EventState}
    (hstep : s.producerIdentified event src state = some t) :
    t.requestId = s.requestId ∧ LooksUpFrom s t := by
  unfold RemoteFindTrainNode.producerIdentified at hstep
  split at hstep
  · cases hstep
  · dsimp only at hstep
    split at hstep
    · unfold RemoteFindTrainNode.handleReply at hstep
      split at hstep
      · cases hstep
      · split at hstep
        · split at hstep
          · cases hstep
            exact ⟨rfl, .of_subset (List.Subset.refl _)⟩
          · cases hstep
            refine ⟨rfl, fun requestId other otherState hlookup => ?_⟩
            rcases List.mem_append.mp hlookup with hold | hlast
            · exact .inl hold
            · cases List.mem_singleton.mp hlast
              exact .inr rfl
        · cases hstep
          exact ⟨rfl, .of_subset (List.Subset.refl _)⟩
    · cases hstep
      exact ⟨rfl, .of_subset (List.Subset.refl _)⟩

theorem preventWakeups_requestId : s.preventWakeups.requestId = s.requestId ∧
    s.preventWakeups.lookups = s.lookups := by
  unfold preventWakeups
  split <;> exact ⟨rfl, rfl⟩

theorem replyTimeout_requestId (hstep : s.replyTimeout = some t) :
    t.requestId = s.requestId ∧ LooksUpFrom s t := by
  have hsame : s.preventWakeups.requestId = s.requestId ∧ LooksUpFrom s s.preventWakeups := by
    refine ⟨preventWakeups_requestId.1, .of_subset ?_⟩
    rw [preventWakeups_requestId.2]
    exact List.Subset.refl _
  unfold RemoteFindTrainNode.replyTimeout at hstep
  dsimp only at hstep
  split at hstep
  · cases hstep
  · split at hstep
    · split at hstep <;> cases hstep <;> exact hsame
    · split at hstep
      · cases hstep
        exact hsame
      · split at hstep
        · cases hstep
          exact hsame
        · cases hstep
          refine ⟨hsame.1, fun requestId src state hlookup => ?_⟩
          rcases List.mem_append.mp hlookup with hold | hlast
          · exact hsame.2 requestId src state hold
          · cases List.mem_singleton.mp hlast

theorem lookupDone_requestId {nodeId : Nat} (hstep : s.lookupDone nodeId = some t) :
    t.requestId = s.requestId ∧ LooksUpFrom s t := by
  unfold RemoteFindTrainNode.lookupDone at hstep
  split at hstep
  · cases hstep
  · next requestId src state lookups hlookups =>
    have hsubset : lookups ⊆ s.lookups := hlookups ▸ List.subset_cons_self _ _
    cases hstep
    unfold RemoteFindTrainNode.replyLookedUp
    split <;> exact ⟨rfl, .of_subset hsubset⟩
  · next src lookups hlookups =>
    have hsubset : lookups ⊆ s.lookups := hlookups ▸ List.subset_cons_self _ _
    dsimp only at hstep
    unfold RemoteFindTrainNode.nodeIdLookupDone at hstep
    split at hstep
    · split at hstep <;> cases hstep <;> exact ⟨rfl, .of_subset hsubset⟩
    · cases hstep

/-- No step but `entry` changes the id, and replies are looked up with the id of their time. -/
theorem step_requestId {i : FindInput EventState} (hstep : s.step i = some t) :
    t.requestId = (if i.isEntry then (s.requestId + 1) % 2 ^ 16 else s.requestId) ∧
    LooksUpFrom s t := by
  cases i with
  | send request =>
    cases hstep
    exact ⟨rfl, .of_subset (List.Subset.refl _)⟩
  | entry =>
    rw [RemoteFindTrainNode.step, RemoteFindTrainNode.entry] at hstep
    split at hstep
    · dsimp only at hstep
      split at hstep
      · cases hstep
        exact ⟨rfl, .of_subset (List.Subset.refl _)⟩
      · split at hstep <;> cases hstep <;> exact ⟨rfl, .of_subset (List.Subset.refl _)⟩
    · cases hstep
  | sendFindQuery =>
    rw [RemoteFindTrainNode.step, RemoteFindTrainNode.sendFindQuery] at hstep
    split at hstep
    · cases hstep
      exact ⟨rfl, .of_subset (List.Subset.refl _)⟩
    · cases hstep
  | producerIdentified event src state => exact producerIdentified_requestId hstep
  | timeout =>
    rw [RemoteFindTrainNode.step] at hstep
    split at hstep
    · exact replyTimeout_requestId (s := s.log .timeout) hstep
    · cases hstep
  | lookupDone nodeId => exact lookupDone_requestId hstep

/-- The number of requests that were started. -/
def entries (past : List (FindInput EventState)) : Nat := past.countP (·.isEntry)

theorem requestId_of_run {past : List (FindInput EventState)}
    (hrun : Trace.run RemoteFindTrainNode.step {} past = some s) (hfew : entries past < 2 ^ 16) :
    s.requestId = entries past ∧
      ∀ requestId src state, .reply requestId src state ∈ s.lookups → requestId ≤ s.requestId := by
  induction past using List.reverseRecOn generalizing s with
  | nil =>
    cases hrun
    exact ⟨rfl, by simp⟩
  | append_singleton past i ih =>
    obtain ⟨u, hpast, hstep⟩ := Trace.run_concat_eq_some.mp hrun
    obtain ⟨hnext, hlookups⟩ := step_requestId hstep
    have hentries : entries (past ++ [i]) = entries past + if i.isEntry then 1 else 0 := by
      rw [entries, List.countP_append, List.countP_singleton]
      rfl
    obtain ⟨hid, hids⟩ := ih hpast (by omega)
    have hgrows : u.requestId ≤ s.requestId ∧ s.requestId = entries (past ++ [i]) := by
      rw [hnext, hentries]
      split <;> rename_i hentry
      · rw [hentries, if_pos hentry] at hfew
        rw [hid, Nat.mod_eq_of_lt hfew]
        exact ⟨Nat.le_succ _, rfl⟩
      · exact ⟨Nat.le_refl _, hid⟩
    refine ⟨hgrows.2, fun requestId src state hlookup => ?_⟩
    rcases hlookups requestId src state hlookup with hold | rfl
    · exact Nat.le_trans (hids requestId src state hold) hgrows.1
    · exact hgrows.1

/-- A request has an id of its own as long as there are fewer than 65536 of them. -/
theorem startsFresh_of_few {history : List (FindInput EventState)}
    (hfew : entries history < 2 ^ 16) :
    Trace.EachStep RemoteFindTrainNode.step (fun _ s i _ => s.StartsFresh i) {} history := by
  intro past i future s t heq hrun hstep
  cases i with
  | entry =>
    have hentries : entries past + 1 ≤ entries history := by
      rw [heq, entries, entries, List.countP_append, List.countP_cons_of_pos rfl]
      omega
    obtain ⟨hid, hids⟩ := requestId_of_run hrun (by omega)
    intro lookup hlookup
    cases lookup with
    | subflow src => rfl
    | reply requestId src state =>
      have hle := hids requestId src state hlookup
      rw [NodeLookup.current, hid, Nat.mod_eq_of_lt (by omega), if_neg (by omega)]
      rfl
  | _ => trivial

/-- Where the flow can go on, whatever it reads is there. -/
structure GoesOn (s : RemoteFindTrainNode EventState) : Prop where
  entry : s.phase = .idle → s.queue ≠ [] → (s.step .entry).isSome
  sendFindQuery : s.phase = .sendFindQuery → (s.step .sendFindQuery).isSome
  producerIdentified : ∀ event src state, event ≠ 0 → src ≠ ⟨0, 0⟩ →
    (s.step (.producerIdentified event src state)).isSome
  timeout : s.phase = .replyTimeout → (s.step .timeout).isSome
  lookupDone : ∀ nodeId, s.lookups ≠ [] → (s.step (.lookupDone nodeId)).isSome
  looksUp : s.phase = .nodeIdLookupDone → s.lookups ≠ []

theorem Sound.goesOn (h : s.Sound) : s.GoesOn where
  entry := by
    intro hphase hqueue
    obtain ⟨request, queue, hqueue⟩ := List.exists_cons_of_ne_nil hqueue
    rw [RemoteFindTrainNode.step, RemoteFindTrainNode.entry, hphase, hqueue]
    dsimp only
    split
    · rfl
    · split <;> rfl
  sendFindQuery := by
    intro hphase
    obtain ⟨request, _, hserves⟩ := h.agrees.exists_serves (.inl (by rw [hphase]; decide))
    have hinput := hserves.input (.inl (by rw [hphase]; decide))
    rw [RemoteFindTrainNode.step, RemoteFindTrainNode.sendFindQuery, hphase, hinput]
    rfl
  producerIdentified := by
    intro event src state hevent hsrc
    rw [RemoteFindTrainNode.step, RemoteFindTrainNode.producerIdentified,
      if_neg (not_or.mpr ⟨hevent, hsrc⟩)]
    dsimp only
    split
    · next hlistening =>
      obtain ⟨request, _, _, hopen, _, hserves⟩ := h.agrees.hears hevent hlistening
      have hinput := hserves.input (hserves.busy hopen)
      rw [RemoteFindTrainNode.handleReply, log_input, hinput]
      dsimp only
      split
      · split <;> rfl
      · rfl
    · rfl
  timeout := by
    intro hphase
    obtain ⟨request, hrequest, _⟩ := h.agrees.exists_serves (.inl (by rw [hphase]; decide))
    have hexpired := h.expire hrequest hphase
    have hphase' : (s.log .timeout).preventWakeups.phase = .replyTimeout := by simpa using hphase
    obtain ⟨_, _, hserves⟩ := hexpired.agrees.exists_serves (.inl (by rw [hphase']; decide))
    have hinput := hserves.input (.inl (by rw [hphase']; decide))
    rw [RemoteFindTrainNode.step, if_pos hphase, RemoteFindTrainNode.replyTimeout, hinput]
    dsimp only
    split
    · split <;> rfl
    · split
      · rfl
      · split <;> rfl
  lookupDone := by
    intro nodeId hlookups
    obtain ⟨lookup, lookups, hlookups⟩ := List.exists_cons_of_ne_nil hlookups
    rw [RemoteFindTrainNode.step, RemoteFindTrainNode.lookupDone, hlookups]
    cases lookup with
    | reply requestId src state => rfl
    | subflow src =>
      have hsubflow := h.agrees.subflow
      have hphase : s.phase = .nodeIdLookupDone := by
        by_contra hother
        rw [if_neg hother, hlookups] at hsubflow
        cases hsubflow
      dsimp only
      rw [RemoteFindTrainNode.nodeIdLookupDone, if_pos (by exact hphase)]
      split <;> rfl
  looksUp := by
    intro hphase hlookups
    have hsubflow := h.agrees.subflow
    rw [if_pos hphase, hlookups] at hsubflow
    cases hsubflow

/-- A search with two replies, a persistent one, and one whose answer is found late. -/
def sampleSearch : List (FindInput Nat) :=
  [.send ⟨5, FindRequest.defaultRequest, true⟩, .entry, .sendFindQuery,
    .producerIdentified 5 ⟨0, 0x123⟩ 1, .producerIdentified 5 ⟨7, 0⟩ 2, .timeout, .lookupDone 9,
    .timeout, .send ⟨6, FindRequest.persistentRequest, true⟩,
    .send ⟨8, FindRequest.defaultRequest, false⟩, .entry, .sendFindQuery, .timeout,
    .producerIdentified 6 ⟨0, 0x124⟩ 2, .entry, .sendFindQuery, .producerIdentified 8 ⟨0, 0x125⟩ 1,
    .timeout, .lookupDone 11, .lookupDone 12]

/-- The flow after them. -/
def sampleSearched : RemoteFindTrainNode Nat :=
  (Trace.run RemoteFindTrainNode.step {} sampleSearch).getD {}

theorem sampleSearch_run :
    Trace.run RemoteFindTrainNode.step {} sampleSearch = some sampleSearched := by
  decide

theorem sampleSearch_fresh : Trace.EachStep RemoteFindTrainNode.step
    (fun _ s i _ => s.StartsFresh i) {} sampleSearch :=
  startsFresh_of_few (by decide)

/-- A callback is only made for the request that is being served, for a message that was heard for
it, before it is notified unless it is persistent, and with the node ID of the sender. -/
theorem callback_of_own_request {history : List (FindInput EventState)}
    (hfresh : Trace.EachStep RemoteFindTrainNode.step (fun _ s i _ => s.StartsFresh i) {} history)
    (hrun : Trace.run RemoteFindTrainNode.step {} history = some s)
    {before after : List (FindRecord EventState)} {src : NodeHandle} {state : EventState}
    {nodeId : Nat} (hcalled : s.record = before ++ .called src state nodeId :: after) :
    ∃ request, (SearchView.of before).request = some request ∧ request.hasCallback = true ∧
      (src, state) ∈ (SearchView.of before).heard ∧
      (¬request.IsPersistent → (SearchView.of before).notified = 0) ∧
      if src.id ≠ 0 then nodeId = src.id else before.getLast? = some (.lookedUp src nodeId) :=
  (sound_of_run hfresh hrun).orderly before _ after hcalled

theorem alias_called_back : ∃ request, (SearchView.of (sampleSearched.record.take 7)).request =
      some request ∧ request.hasCallback = true ∧
    (⟨0, 0x123⟩, 1) ∈ (SearchView.of (sampleSearched.record.take 7)).heard ∧
    (¬request.IsPersistent → (SearchView.of (sampleSearched.record.take 7)).notified = 0) ∧
    if (⟨0, 0x123⟩ : NodeHandle).id ≠ 0 then 9 = (⟨0, 0x123⟩ : NodeHandle).id
    else (sampleSearched.record.take 7).getLast? = some (.lookedUp ⟨0, 0x123⟩ 9) :=
  callback_of_own_request sampleSearch_fresh sampleSearch_run
    (show sampleSearched.record = sampleSearched.record.take 7 ++
      .called ⟨0, 0x123⟩ 1 9 :: sampleSearched.record.drop 8 by decide)

/-- Each request is notified exactly once before the next one is started: one with a callback when
all that was heard in its time has been delivered, one without with the first sender that answered.
-/
theorem notified_once {history : List (FindInput EventState)}
    (hfresh : Trace.EachStep RemoteFindTrainNode.step (fun _ s i _ => s.StartsFresh i) {} history)
    (hrun : Trace.run RemoteFindTrainNode.step {} history = some s) :
    (∀ before after request, s.record = before ++ .started request :: after →
      (SearchView.of before).request = none ∨ (SearchView.of before).notified = 1) ∧
    ∀ before after result nodeId, s.record = before ++ .notified result nodeId :: after →
      ∃ request, (SearchView.of before).request = some request ∧
        (SearchView.of before).notified = 0 ∧
        if request.hasCallback = true ∨ request.resultCode = FindRequest.cancelRequest then
          result = .ok ∧ nodeId = 0 ∧ (¬request.IsPersistent →
            (SearchView.of before).heard.Perm (SearchView.of before).called)
        else Answers (SearchView.of before).heard before.getLast? result nodeId := by
  have horderly := (sound_of_run hfresh hrun).orderly
  refine ⟨?_, ?_⟩
  · intro before after request hstarted
    exact horderly before _ after hstarted
  · intro before after result nodeId hnotified
    exact horderly before _ after hnotified

theorem three_searches_notified :
    (∀ before after request, sampleSearched.record = before ++ .started request :: after →
      (SearchView.of before).request = none ∨ (SearchView.of before).notified = 1) ∧
    ∀ before after result nodeId,
      sampleSearched.record = before ++ .notified result nodeId :: after →
      ∃ request, (SearchView.of before).request = some request ∧
        (SearchView.of before).notified = 0 ∧
        if request.hasCallback = true ∨ request.resultCode = FindRequest.cancelRequest then
          result = .ok ∧ nodeId = 0 ∧ (¬request.IsPersistent →
            (SearchView.of before).heard.Perm (SearchView.of before).called)
        else Answers (SearchView.of before).heard before.getLast? result nodeId :=
  notified_once sampleSearch_fresh sampleSearch_run

/-- No message that was heard is lost or delivered twice: each has been delivered, is being looked
up, or was dropped and counted when the lookup ended after the next request had been started. -/
theorem replies_accounted {history : List (FindInput EventState)}
    (hfresh : Trace.EachStep RemoteFindTrainNode.step (fun _ s i _ => s.StartsFresh i) {} history)
    (hrun : Trace.run RemoteFindTrainNode.step {} history = some s) :
    s.view.allHeard.Perm (s.view.allCalled ++ s.view.allDropped ++
      s.lookups.filterMap NodeLookup.message) ∧
    s.droppedResults = s.view.allDropped.length % 2 ^ 16 ∧
    ∀ request, s.view.request = some request → request.hasCallback = true →
      s.view.heard.Perm (s.view.called ++ s.lookups.filterMap (·.current s.requestId)) := by
  have hagrees := (sound_of_run hfresh hrun).agrees
  refine ⟨hagrees.accounted, hagrees.dropped, ?_⟩
  intro request hrequest hcallback
  exact (hagrees.serves request hrequest).pending hcallback

theorem late_reply_accounted : sampleSearched.view.allHeard.Perm
      (sampleSearched.view.allCalled ++ sampleSearched.view.allDropped ++
        sampleSearched.lookups.filterMap NodeLookup.message) ∧
    sampleSearched.droppedResults = sampleSearched.view.allDropped.length % 2 ^ 16 ∧
    ∀ request, sampleSearched.view.request = some request → request.hasCallback = true →
      sampleSearched.view.heard.Perm (sampleSearched.view.called ++
        sampleSearched.lookups.filterMap (·.current sampleSearched.requestId)) :=
  replies_accounted sampleSearch_fresh sampleSearch_run

/-- The flow never reads a request that is not there, and never waits for what cannot come. -/
theorem always_goesOn {history : List (FindInput EventState)}
    (hfresh : Trace.EachStep RemoteFindTrainNode.step (fun _ s i _ => s.StartsFresh i) {} history)
    (hrun : Trace.run RemoteFindTrainNode.step {} history = some s) : s.GoesOn :=
  (sound_of_run hfresh hrun).goesOn

theorem late_reply_goesOn : sampleSearched.GoesOn :=
  always_goesOn sampleSearch_fresh sampleSearch_run

end RemoteFindTrainNode

end OpenmrnCue.CommandStation
