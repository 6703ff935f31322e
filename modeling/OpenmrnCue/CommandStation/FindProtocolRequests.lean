import OpenmrnCue.CommandStation.FindProtocolServer

/-! What the train search server does with its requests, over any order of requests and steps of the
flow.  A request for all trains is answered for every train after it came in.  A request with
`ALLOCATE` is never cut short.  Every other request is cut short only for a later one from the same
node. -/

namespace OpenmrnCue.CommandStation.FindProtocolServer

open FindProtocolDefs

variable {Handle : Type} {matchingNode : Handle → Handle → Bool} {trains : List Train}
  {s t : Server Handle} {request : Request Handle} {newNodeId : Nat}

/-! ## The states of the flow -/

/-- In the states after `entry` the flow serves the request that it took from the queue. -/
structure WellFormed (s : Server Handle) : Prop where
  idle : s.phase = .idle → s.message = none
  busy : s.phase ≠ .idle → ∃ request, s.message = some request
  serving : s.phase ≠ .idle → s.phase ≠ .entry → ∀ request, s.message = some request →
    s.eventId = request.event ∧ s.isGlobal = isSweep request.event

theorem wellFormed_releaseAndExit (s : Server Handle) : WellFormed (releaseAndExit s) :=
  ⟨fun _ => rfl, fun h => absurd rfl h, fun h => absurd rfl h⟩

theorem WellFormed.congr (h : WellFormed s) (hphase : t.phase = s.phase)
    (hmessage : t.message = s.message) (hevent : t.eventId = s.eventId)
    (hglobal : t.isGlobal = s.isGlobal) : WellFormed t :=
  ⟨by simpa [hphase, hmessage] using h.idle, by simpa [hphase, hmessage] using h.busy,
    by simpa [hphase, hmessage, hevent, hglobal] using h.serving⟩

/-- A step between two states after `entry`. -/
theorem WellFormed.advance (h : WellFormed s) (hidle : s.phase ≠ .idle) (hentry : s.phase ≠ .entry)
    (hidle' : t.phase ≠ .idle) (hmessage : t.message = s.message) (hevent : t.eventId = s.eventId)
    (hglobal : t.isGlobal = s.isGlobal) : WellFormed t := by
  refine ⟨fun hphase => absurd hphase hidle', fun _ => by rw [hmessage]; exact h.busy hidle, ?_⟩
  intro _ _ request hrequest
  rw [hmessage] at hrequest
  rw [hevent, hglobal]
  exact h.serving hidle hentry request hrequest

theorem WellFormed.start {isGlobal : Bool} (hmessage : s.message = some request)
    (hevent : s.eventId = request.event) (hglobal : isGlobal = isSweep request.event) :
    WellFormed (startIteration s isGlobal) := by
  refine ⟨nofun, fun _ => ⟨request, hmessage⟩, fun _ _ other hother => ?_⟩
  obtain rfl : request = other := Option.some.inj (hmessage.symm.trans hother)
  exact ⟨hevent, hglobal⟩

theorem WellFormed.flow (h : WellFormed s) (hflow : FlowStep trains newNodeId s t) :
    WellFormed t := by
  cases hflow with
  | dequeue hphase hqueue =>
    exact ⟨nofun, fun _ => ⟨_, rfl⟩, fun _ hentry => absurd rfl hentry⟩
  | skip | done | reply => exact wellFormed_releaseAndExit _
  | startSweep sweep hphase hmessage hevent hpending =>
    exact .start (by simpa using hmessage) (by simp) (by simp [hevent])
  | startFind hphase hmessage hsweep => exact .start hmessage rfl hsweep.symm
  | restart sweep hphase =>
    exact h.advance (by simp [hphase]) (by simp [hphase]) (by simp [hphase]) (by simp) (by simp) (by simp)
  | finish hphase | report hphase | lookup hphase | found hphase | notFound hphase | respond hphase
  | noResponse hphase | next hphase =>
    exact h.advance (by simp [hphase]) (by simp [hphase]) (by simp) rfl rfl rfl
  | allocate hphase hcond hresult =>
    rcases hresult with ⟨rfl, rfl⟩ | ⟨rfl, rfl⟩
    · exact ⟨fun _ => rfl, fun h => absurd rfl h, fun h => absurd rfl h⟩
    · exact h.advance (by simp [hphase]) (by simp [hphase]) (by simp) rfl rfl rfl
  | wait hphase hnext =>
    refine h.advance ?_ ?_ ?_ rfl rfl rfl
    · rcases hphase with hphase | hphase <;> simp [hphase]
    · rcases hphase with hphase | hphase <;> simp [hphase]
    · rcases hnext with rfl | rfl <;> simp

theorem WellFormed.step {input : Input Handle} (h : WellFormed s)
    (hstep : step matchingNode trains s input = some t) : WellFormed t := by
  rcases step_cases hstep with ⟨src, -, rfl, -⟩ | ⟨request, harrival, -⟩ | ⟨newNodeId, -, hflow⟩
  · exact h.congr rfl rfl rfl rfl
  · exact h.congr harrival.phase harrival.message harrival.eventId harrival.isGlobal
  · exact h.flow hflow

/-! ## Requests for all trains -/

section Sweeps

variable {sweep : Sweep}

/-- Each of the first `n` trains has been answered for since the last request. -/
def Covered (sweep : Sweep) (trains : List Train) (record : List (Record Handle)) (n : Nat) : Prop :=
  ∀ before request after, record = before ++ request :: after → sweep.isRequest request = true →
    ∀ train ∈ trains.take n, ∀ response ∈ responses sweep.event train.nodeId, response ∈ after

theorem covered_zero (record : List (Record Handle)) : Covered sweep trains record 0 := by
  intro before request after _ _ train htrain
  simp at htrain

theorem Covered.le {record : List (Record Handle)} {n m : Nat} (h : Covered sweep trains record n)
    (hle : trains.take m ⊆ trains.take n) : Covered sweep trains record m :=
  fun before request after heq hrequest train htrain =>
    h before request after heq hrequest train (hle htrain)

theorem Covered.all {record : List (Record Handle)} {n : Nat} (h : Covered sweep trains record n)
    (hn : trains.length ≤ n) : Covered sweep trains record trains.length :=
  h.le (by rw [List.take_length, List.take_of_length_le hn]; exact List.Subset.refl _)

/-- What is added to the record after a request. -/
theorem append_eq_append_cons {α : Type} {record added before after : List α} {a : α}
    (h : record ++ added = before ++ a :: after) (ha : a ∉ added) :
    ∃ middle, after = middle ++ added ∧ record = before ++ a :: middle := by
  rcases List.append_eq_append_iff.mp h with ⟨middle, rfl, hadded⟩ | ⟨middle, rfl, hafter⟩
  · exact absurd (by simp [hadded]) ha
  · cases middle with
    | nil => exact absurd (show a ∈ added by rw [← show a :: after = added from hafter]; simp) ha
    | cons b middle =>
      obtain ⟨rfl, rfl⟩ := List.cons.inj hafter
      exact ⟨middle, rfl, rfl⟩

theorem Covered.append {record added : List (Record Handle)} {n : Nat}
    (h : Covered sweep trains record n) (hadded : ∀ entry ∈ added, sweep.isRequest entry = false) :
    Covered sweep trains (record ++ added) n := by
  intro before request after heq hrequest train htrain response hresponse
  have hnot : request ∉ added := fun hmem => by simp [hadded request hmem] at hrequest
  obtain ⟨middle, rfl, rfl⟩ := append_eq_append_cons heq hnot
  exact List.mem_append_left _ (h before request middle rfl hrequest train htrain response hresponse)

theorem isRequest_responses {event nodeId : Nat} {entry : Record Handle}
    (h : entry ∈ responses event nodeId) : sweep.isRequest entry = false := by
  unfold responses at h
  split at h
  · rcases List.mem_pair.mp h with rfl | rfl <;> rfl
  · split at h
    · rw [List.mem_singleton.mp h]; rfl
    · rw [List.mem_singleton.mp h]; rfl

/-- The answers for the next train. -/
theorem Covered.respond {record : List (Record Handle)} {n : Nat} {train : Train}
    (h : Covered sweep trains record n) (htrain : trains[n]? = some train) :
    Covered sweep trains (record ++ responses sweep.event train.nodeId) (n + 1) := by
  intro before request after heq hrequest other hother response hresponse
  have hnot : request ∉ responses sweep.event train.nodeId :=
    fun hmem => by simp [isRequest_responses hmem] at hrequest
  obtain ⟨middle, rfl, rfl⟩ := append_eq_append_cons heq hnot
  rw [List.take_add_one, htrain] at hother
  rcases List.mem_append.mp hother with hother | hother
  · exact List.mem_append_left _ (h before request middle rfl hrequest other hother response hresponse)
  · obtain rfl : other = train := by simpa using hother
    exact List.mem_append_right _ hresponse

/-- The flow is answering a request for all trains. -/
def Iterating (sweep : Sweep) (s : Server Handle) : Prop :=
  (s.phase = .iterate ∨ s.phase = .sendResponse ∨ s.phase = .nextIterate) ∧
    ∃ request, s.message = some request ∧ request.event = sweep.event

/-- The trains that the flow has answered for. -/
def progress (s : Server Handle) : Nat :=
  if s.phase = .nextIterate then s.nextTrainId + 1 else s.nextTrainId

/-- While the flag is set, a request for all trains is still to be served.  While it is not, every
train has been answered for, or the flow is answering and is not going to be cut short. -/
structure Kept (sweep : Sweep) (trains : List Train) (s : Server Handle) : Prop where
  queued : sweep.pending s = true → (∃ request ∈ s.queue, request.event = sweep.event) ∨
    s.phase = .entry ∧ ∃ request, s.message = some request ∧ request.event = sweep.event
  covered : sweep.pending s = false → Covered sweep trains s.record trains.length ∨
    Iterating sweep s ∧ s.cancelIteration = false ∧ Covered sweep trains s.record (progress s)

theorem Kept.congr (h : Kept sweep trains s) (hphase : s.phase ≠ .entry) (hqueue : t.queue = s.queue)
    (hpending : sweep.pending t = sweep.pending s)
    (hcovered : sweep.pending s = false → Covered sweep trains t.record trains.length ∨
      Iterating sweep t ∧ t.cancelIteration = false ∧ Covered sweep trains t.record (progress t)) :
    Kept sweep trains t := by
  refine ⟨fun hpend => ?_, fun hpend => hcovered (hpending ▸ hpend)⟩
  rw [hpending] at hpend
  rcases h.queued hpend with hmem | ⟨hentry, -⟩
  · exact .inl (hqueue ▸ hmem)
  · exact absurd hentry hphase

/-- A step of the flow while it is not answering the request. -/
theorem Kept.frame (added : List (Record Handle)) (h : Kept sweep trains s)
    (hphase : s.phase ≠ .entry) (hnot : ¬ Iterating sweep s) (hqueue : t.queue = s.queue)
    (hpending : sweep.pending t = sweep.pending s) (hrecord : t.record = s.record ++ added)
    (hadded : ∀ entry ∈ added, sweep.isRequest entry = false) : Kept sweep trains t := by
  refine h.congr hphase hqueue hpending fun hpend => .inl ?_
  rcases h.covered hpend with hall | ⟨hiterating, -⟩
  · exact hrecord ▸ hall.append hadded
  · exact absurd hiterating hnot

theorem not_iterating (h1 : s.phase ≠ .iterate) (h2 : s.phase ≠ .sendResponse)
    (h3 : s.phase ≠ .nextIterate) : ¬ Iterating sweep s := by
  rintro ⟨hphase | hphase | hphase, -⟩
  · exact h1 hphase
  · exact h2 hphase
  · exact h3 hphase

/-- A step within the iteration that leaves the progress as it is. -/
theorem Kept.advance (h : Kept sweep trains s) (hphase : s.phase ≠ .entry) (hqueue : t.queue = s.queue)
    (hpending : sweep.pending t = sweep.pending s) (hrecord : t.record = s.record)
    (hmessage : t.message = s.message) (hcancel : t.cancelIteration = s.cancelIteration)
    (hprogress : progress t = progress s)
    (ht : t.phase = .iterate ∨ t.phase = .sendResponse ∨ t.phase = .nextIterate) :
    Kept sweep trains t := by
  refine h.congr hphase hqueue hpending fun hpend => ?_
  rw [hrecord, hcancel, hprogress]
  rcases h.covered hpend with hall | ⟨⟨-, hrequest⟩, hcovered⟩
  · exact .inl hall
  · exact .inr ⟨⟨ht, hmessage ▸ hrequest⟩, hcovered⟩

theorem Kept.entry (h : Kept sweep trains s) (hphase : s.phase = .entry)
    (hmessage : s.message = some request) (hne : request.event ≠ sweep.event)
    (hqueue : t.queue = s.queue) (hpending : sweep.pending t = sweep.pending s)
    (hrecord : t.record = s.record) : Kept sweep trains t := by
  refine ⟨fun hpend => ?_, fun hpend => .inl ?_⟩
  · rw [hpending] at hpend
    rcases h.queued hpend with hmem | ⟨-, other, hother, hevent⟩
    · exact .inl (hqueue ▸ hmem)
    · obtain rfl : request = other := Option.some.inj (hmessage.symm.trans hother)
      exact absurd hevent hne
  · rw [hpending] at hpend
    rcases h.covered hpend with hall | ⟨hiterating, -⟩
    · exact hrecord ▸ hall
    · exact absurd hiterating (not_iterating (by simp [hphase]) (by simp [hphase]) (by simp [hphase]))

/-- A request for all trains that the flow answers has its event in `eventId_`. -/
theorem Iterating.eventId (hwell : WellFormed s) (h : Iterating sweep s) :
    s.eventId = sweep.event ∧ s.isGlobal = true := by
  obtain ⟨hphase, request, hmessage, hevent⟩ := h
  have hidle : s.phase ≠ .idle := by rcases hphase with h | h | h <;> simp [h]
  have hentry : s.phase ≠ .entry := by rcases hphase with h | h | h <;> simp [h]
  obtain ⟨heventId, hglobal⟩ := hwell.serving hidle hentry request hmessage
  exact ⟨heventId.trans hevent, by rw [hglobal, hevent, isSweep_event]⟩

theorem Kept.flow (hwell : WellFormed s) (h : Kept sweep trains s)
    (hflow : FlowStep trains newNodeId s t) : Kept sweep trains t := by
  have hentryCovered : s.phase = .entry → sweep.pending s = false →
      Covered sweep trains s.record trains.length := by
    intro hphase hpend
    rcases h.covered hpend with hall | ⟨hiterating, -⟩
    · exact hall
    · exact absurd hiterating (not_iterating (by simp [hphase]) (by simp [hphase]) (by simp [hphase]))
  cases hflow with
  | dequeue hphase hqueue =>
    refine ⟨fun hpend => ?_, fun hpend => .inl ?_⟩
    · have hpend' : sweep.pending s = true := by cases sweep <;> exact hpend
      rcases h.queued hpend' with ⟨other, hmem, hevent⟩ | ⟨hentry, -⟩
      · rw [hqueue] at hmem
        rcases List.mem_cons.mp hmem with rfl | hmem
        · exact .inr ⟨rfl, other, rfl, hevent⟩
        · exact .inl ⟨other, hmem, hevent⟩
      · simp [hphase] at hentry
    · have hpend' : sweep.pending s = false := by cases sweep <;> exact hpend
      rcases h.covered hpend' with hall | ⟨hiterating, -⟩
      · exact hall
      · exact absurd hiterating (not_iterating (by simp [hphase]) (by simp [hphase]) (by simp [hphase]))
  | skip other hphase hmessage hevent hpending =>
    by_cases hsame : other = sweep
    · subst hsame
      have hpend : ∀ eventId, other.pending (releaseAndExit
          { s with eventId, cancelIteration := false, isGlobal := true }) = false :=
        fun eventId => by cases other <;> exact hpending
      refine ⟨fun htrue => ?_, fun _ => .inl (hentryCovered hphase hpending)⟩
      rw [hpend] at htrue
      cases htrue
    · refine h.entry hphase hmessage (fun heq => hsame (Sweep.event_injective (hevent.symm.trans heq))) rfl
        ?_ rfl
      cases sweep <;> rfl
  | startSweep other hphase hmessage hevent hpending =>
    by_cases hsame : other = sweep
    · subst hsame
      have hpend : ∀ s' : Server Handle, other.pending (startIteration (other.consume s') true) = false :=
        fun s' => by cases other <;> rfl
      refine ⟨fun htrue => ?_, fun _ => .inr ⟨⟨.inl rfl, _, by simpa [startIteration] using hmessage, hevent⟩,
        by simp [startIteration], covered_zero _⟩⟩
      rw [hpend] at htrue
      cases htrue
    · refine h.entry hphase hmessage (fun heq => hsame (Sweep.event_injective (hevent.symm.trans heq)))
        (by simp [startIteration]) ?_ (by simp [startIteration])
      cases sweep <;> cases other <;> first | contradiction | rfl
  | startFind hphase hmessage hsweep =>
    refine h.entry hphase hmessage (fun heq => ?_) rfl (by cases sweep <;> rfl) rfl
    rw [heq, isSweep_event] at hsweep
    cases hsweep
  | finish hphase hdone =>
    refine h.congr (by simp [hphase]) rfl (by cases sweep <;> rfl) fun hpend => .inl ?_
    rcases h.covered hpend with hall | ⟨-, hcancel, hcovered⟩
    · exact hall
    · rcases hdone with hend | hcancel'
      · exact hcovered.all (by simpa [progress, hphase] using hend)
      · simp [hcancel] at hcancel'
  | restart other hphase hlt hcancel hglobal hevent hpending =>
    by_cases hsame : other = sweep
    · subst hsame
      refine ⟨fun htrue => by simp at htrue, fun _ => .inr ⟨⟨.inl (by simpa using hphase), ?_⟩,
        by simpa using hcancel, by simpa [progress, hphase] using covered_zero _⟩⟩
      obtain ⟨request, hmessage⟩ := hwell.busy (by simp [hphase])
      have heventId := (hwell.serving (by simp [hphase]) (by simp [hphase]) request hmessage).1
      exact ⟨request, by simpa using hmessage, by rw [← heventId, hevent]⟩
    · refine h.frame [] (by simp [hphase]) (fun hiterating => hsame ?_) (by simp) ?_ (by simp)
        (by simp)
      · exact Sweep.event_injective (hevent.symm.trans (hiterating.eventId hwell).1)
      · cases sweep <;> cases other <;> first | contradiction | rfl
  | report hphase hlt hcancel hglobal hpending =>
    exact h.advance (by simp [hphase]) rfl (by cases sweep <;> rfl) rfl rfl rfl
      (by simp [progress, hphase]) (.inr (.inl rfl))
  | lookup hphase hlt hcancel hglobal =>
    refine h.frame [] (by simp [hphase]) (fun hiterating => ?_) rfl (by cases sweep <;> rfl)
      (by simp) (by simp)
    rw [(hiterating.eventId hwell).2] at hglobal
    cases hglobal
  | found hphase | notFound hphase | done hphase =>
    exact h.frame [] (by simp [hphase])
      (not_iterating (by simp [hphase]) (by simp [hphase]) (by simp [hphase])) rfl
      (by cases sweep <;> rfl) (List.append_nil _).symm (by simp)
  | respond hphase htrain =>
    refine h.congr (by simp [hphase]) rfl (by cases sweep <;> rfl) fun hpend => ?_
    rcases h.covered hpend with hall | ⟨hiterating, hcancel, hcovered⟩
    · exact .inl (hall.append fun entry hentry => isRequest_responses hentry)
    · refine .inr ⟨⟨.inr (.inr rfl), hiterating.2⟩, hcancel, ?_⟩
      rw [(hiterating.eventId hwell).1]
      have hprogress : progress s = s.nextTrainId := by simp [progress, hphase]
      rw [hprogress] at hcovered
      simpa [progress] using hcovered.respond htrain
  | noResponse hphase htrain =>
    refine h.congr (by simp [hphase]) rfl (by cases sweep <;> rfl) fun hpend => .inl ?_
    rcases h.covered hpend with hall | ⟨-, -, hcovered⟩
    · exact hall
    · refine hcovered.all ?_
      simpa [progress, hphase] using htrain
  | next hphase =>
    exact h.advance (by simp [hphase]) rfl (by cases sweep <;> rfl) rfl rfl rfl
      (by simp [progress, hphase]) (.inl rfl)
  | allocate hphase =>
    exact h.frame _ (by simp [hphase])
      (not_iterating (by simp [hphase]) (by simp [hphase]) (by simp [hphase])) rfl
      (by cases sweep <;> rfl) rfl (by simp [Sweep.isRequest])
  | wait hphase =>
    refine h.frame [] ?_ (not_iterating ?_ ?_ ?_) rfl (by cases sweep <;> rfl)
      (List.append_nil _).symm (by simp)
    all_goals rcases hphase with hphase | hphase <;> simp [hphase]
  | reply hphase =>
    exact h.frame _ (by simp [hphase])
      (not_iterating (by simp [hphase]) (by simp [hphase]) (by simp [hphase])) rfl
      (by cases sweep <;> rfl) rfl (by simp [Sweep.isRequest])

/-- Only a request of its own kind follows up on a request for all trains. -/
theorem isFollowupRequest_sweep {current next : Request Handle} (hcurrent : current.event = sweep.event)
    (hne : next.event ≠ sweep.event) : isFollowupRequest matchingNode current next = false := by
  unfold isFollowupRequest
  have hdiffers : current.event ≠ next.event := fun heq => hne (heq.symm.trans hcurrent)
  have hfind : ¬ isFindEvent current.event := hcurrent ▸ sweep.not_isFindEvent
  simp [hdiffers, hfind]

theorem Kept.arrival (h : Kept sweep trains s) (harrival : Arrival matchingNode request s t) :
    Kept sweep trains t := by
  by_cases hevent : request.event = sweep.event
  · have hpend := harrival.pending sweep hevent
    refine ⟨fun _ => .inl ⟨request, by simp [harrival.queue], hevent⟩, fun hfalse => ?_⟩
    rw [hpend] at hfalse
    cases hfalse
  · obtain ⟨hpend, entry, hrecord, hentry⟩ := harrival.other sweep hevent
    refine ⟨fun htrue => ?_, fun hfalse => ?_⟩
    · rw [harrival.phase, harrival.message]
      refine (h.queued (hpend ▸ htrue)).imp_left ?_
      rintro ⟨other, hmem, hother⟩
      exact ⟨other, by simp [harrival.queue, hmem], hother⟩
    · have hadded : ∀ added ∈ [entry], sweep.isRequest added = false := by simpa using hentry
      rcases h.covered (hpend ▸ hfalse) with hall | ⟨⟨hphase, current, hmessage, hcurrent⟩, hcancel, hcovered⟩
      · exact .inl (hrecord ▸ hall.append hadded)
      · refine .inr ⟨⟨harrival.phase ▸ hphase, current, harrival.message.trans hmessage, hcurrent⟩, ?_, ?_⟩
        · simp [harrival.cancel, hcancel, hmessage, isFollowupRequest_sweep hcurrent hevent]
        · have hprogress : progress t = progress s := by
            simp [progress, harrival.phase, harrival.nextTrainId]
          rw [hrecord, hprogress]
          exact hcovered.append hadded

theorem Kept.swallow {src : Handle} (h : Kept sweep trains s) (hpending : s.pendingGlobalIdentify = true) :
    Kept sweep trains { s with record := s.record ++ [.identifyGlobal src] } := by
  cases sweep with
  | global =>
    refine ⟨h.queued, fun hfalse => ?_⟩
    have : s.pendingGlobalIdentify = false := hfalse
    simp [hpending] at this
  | isTrain =>
    have hadded : ∀ entry ∈ [(.identifyGlobal src : Record Handle)],
        Sweep.isTrain.isRequest entry = false := by simp [Sweep.isRequest]
    refine ⟨h.queued, fun hfalse => ?_⟩
    rcases h.covered hfalse with hall | ⟨hiterating, hcancel, hcovered⟩
    · exact .inl (hall.append hadded)
    · exact .inr ⟨hiterating, hcancel, hcovered.append hadded⟩

theorem Kept.step {input : Input Handle} (hwell : WellFormed s) (h : Kept sweep trains s)
    (hstep : step matchingNode trains s input = some t) : Kept sweep trains t := by
  rcases step_cases hstep with ⟨src, hpending, rfl, -⟩ | ⟨request, harrival, -⟩ | ⟨newNodeId, -, hflow⟩
  · exact h.swallow hpending
  · exact h.arrival harrival
  · exact h.flow hwell hflow

/-- When there is nothing left to do, every train has been answered for. -/
theorem Kept.covered_of_idle (h : Kept sweep trains s) (hidle : s.phase = .idle) (hqueue : s.queue = []) :
    Covered sweep trains s.record trains.length := by
  cases hpend : sweep.pending s with
  | true =>
    rcases h.queued hpend with ⟨request, hmem, -⟩ | ⟨hentry, -⟩
    · simp [hqueue] at hmem
    · simp [hidle] at hentry
  | false =>
    rcases h.covered hpend with hall | ⟨hiterating, -⟩
    · exact hall
    · exact absurd hiterating (not_iterating (by simp [hidle]) (by simp [hidle]) (by simp [hidle]))

end Sweeps

/-! ## Requests that are cut short, and allocation -/

/-- The trains that have been matched against the query. -/
def searched (s : Server Handle) : Nat :=
  if s.phase = .sendResponse ∨ s.phase = .nextIterate then s.nextTrainId + 1 else s.nextTrainId

/-- The iteration of the request that the flow serves: it is cancelled only for a request from the
same node in the queue, and `hasMatches_` says whether one of the trains so far matches. -/
structure Iteration (matchingNode : Handle → Handle → Bool) (trains : List Train) (s : Server Handle) :
    Prop where
  cancelled : ∀ request, s.phase ≠ .idle → s.phase ≠ .entry → s.message = some request →
    s.cancelIteration = true → ¬ HasFlag request.event allocate ∧
      ∃ later ∈ s.queue, matchingNode request.src later.src = true
  finished : s.phase = .iterationDone → trains.length ≤ s.nextTrainId ∨ s.cancelIteration = true
  hasMatches : s.phase = .iterate ∨ s.phase = .tryTraindbLookup ∨ s.phase = .sendResponse ∨
      s.phase = .nextIterate ∨ s.phase = .iterationDone → s.isGlobal = false →
    (s.hasMatches = true ↔ ∃ train ∈ trains.take (searched s), Matches s.eventId train)

theorem isFollowupRequest_eq_true {current next : Request Handle}
    (h : isFollowupRequest matchingNode current next = true) :
    matchingNode current.src next.src = true ∧ ¬ HasFlag current.event allocate := by
  unfold isFollowupRequest at h
  split at h
  · cases h
  · next hmatching =>
    split at h
    · cases h
    · next hallocate => exact ⟨by simpa using hmatching, hallocate⟩

/-- Before `entry` there is nothing to say. -/
theorem iteration_of_phase (h : s.phase = .idle ∨ s.phase = .entry) :
    Iteration matchingNode trains s := by
  refine ⟨fun request hidle hentry => ?_, fun hdone => ?_, fun hphase => ?_⟩
  · rcases h with h | h <;> contradiction
  · rcases h with h | h <;> simp [h] at hdone
  · rcases h with h | h <;> simp [h] at hphase

/-- A step after `entry` that leaves the request and the queue alone. -/
theorem Iteration.advance (h : Iteration matchingNode trains s) (hidle : s.phase ≠ .idle)
    (hentry : s.phase ≠ .entry) (hmessage : t.message = s.message) (hqueue : t.queue = s.queue)
    (hcancel : t.cancelIteration = s.cancelIteration)
    (hfinished : t.phase = .iterationDone → trains.length ≤ t.nextTrainId ∨ t.cancelIteration = true)
    (hmatches : t.phase = .iterate ∨ t.phase = .tryTraindbLookup ∨ t.phase = .sendResponse ∨
      t.phase = .nextIterate ∨ t.phase = .iterationDone → t.isGlobal = false →
      (t.hasMatches = true ↔ ∃ train ∈ trains.take (searched t), Matches t.eventId train)) :
    Iteration matchingNode trains t := by
  refine ⟨fun request _ _ hrequest htrue => ?_, hfinished, hmatches⟩
  rw [hqueue]
  exact h.cancelled request hidle hentry (hmessage ▸ hrequest) (hcancel ▸ htrue)

theorem Iteration.flow (h : Iteration matchingNode trains s) (hflow : FlowStep trains newNodeId s t) :
    Iteration matchingNode trains t := by
  cases hflow with
  | dequeue => exact iteration_of_phase (.inr rfl)
  | skip | done | reply => exact iteration_of_phase (.inl rfl)
  | startSweep sweep =>
    exact ⟨fun _ _ _ _ htrue => by simp [startIteration] at htrue, nofun,
      fun _ hfalse => by simp [startIteration] at hfalse⟩
  | startFind =>
    exact ⟨fun _ _ _ _ htrue => by simp [startIteration] at htrue, nofun,
      fun _ _ => by simp [startIteration, searched]⟩
  | finish hphase hdone =>
    refine h.advance (by simp [hphase]) (by simp [hphase]) rfl rfl rfl (fun _ => hdone) fun _ hglobal => ?_
    simpa [searched, hphase] using h.hasMatches (.inl hphase) hglobal
  | restart sweep hphase hlt hcancel hglobal =>
    refine h.advance (by simp [hphase]) (by simp [hphase]) (by simp) (by simp) (by simp)
      (fun hdone => by simp [hphase] at hdone) fun _ hfalse => ?_
    simp [hglobal] at hfalse
  | report hphase hlt hcancel hglobal =>
    refine h.advance (by simp [hphase]) (by simp [hphase]) rfl rfl rfl nofun fun _ hfalse => ?_
    simp [hglobal] at hfalse
  | lookup hphase =>
    refine h.advance (by simp [hphase]) (by simp [hphase]) rfl rfl rfl nofun fun _ hglobal => ?_
    simpa [searched, hphase] using h.hasMatches (.inl hphase) hglobal
  | found hphase htrain hmatch =>
    refine h.advance (by simp [hphase]) (by simp [hphase]) rfl rfl rfl nofun fun _ _ => ?_
    refine ⟨fun _ => ⟨_, ?_, hmatch⟩, fun _ => rfl⟩
    simp [searched, List.take_add_one, htrain]
  | notFound hphase hmatch =>
    refine h.advance (by simp [hphase]) (by simp [hphase]) rfl rfl rfl nofun fun _ hglobal => ?_
    have hbefore : s.hasMatches = true ↔ ∃ train ∈ trains.take s.nextTrainId, Matches s.eventId train := by
      simpa [searched, hphase] using h.hasMatches (.inr (.inl hphase)) hglobal
    have hsearched : searched { s with phase := .nextIterate } = s.nextTrainId + 1 := by simp [searched]
    rw [hsearched, List.take_add_one]
    refine hbefore.trans ⟨?_, ?_⟩
    · rintro ⟨train, hmem, htrain⟩
      exact ⟨train, List.mem_append_left _ hmem, htrain⟩
    · rintro ⟨train, hmem, htrain⟩
      rcases List.mem_append.mp hmem with hmem | hmem
      · exact ⟨train, hmem, htrain⟩
      · exact absurd htrain (hmatch train (Option.mem_toList.mp hmem))
  | respond hphase | noResponse hphase =>
    refine h.advance (by simp [hphase]) (by simp [hphase]) rfl rfl rfl nofun fun _ hglobal => ?_
    simpa [searched, hphase] using h.hasMatches (.inr (.inr (.inl hphase))) hglobal
  | next hphase =>
    refine h.advance (by simp [hphase]) (by simp [hphase]) rfl rfl rfl nofun fun _ hglobal => ?_
    simpa [searched, hphase] using h.hasMatches (.inr (.inr (.inr (.inl hphase)))) hglobal
  | allocate hphase hcond hresult =>
    rcases hresult with ⟨rfl, rfl⟩ | ⟨rfl, rfl⟩
    · exact iteration_of_phase (.inl rfl)
    · exact h.advance (by simp [hphase]) (by simp [hphase]) rfl rfl rfl nofun (by simp)
  | wait hphase hnext =>
    refine h.advance ?_ ?_ rfl rfl rfl ?_ ?_
    · rcases hphase with hphase | hphase <;> simp [hphase]
    · rcases hphase with hphase | hphase <;> simp [hphase]
    · rcases hnext with rfl | rfl <;> nofun
    · rcases hnext with rfl | rfl <;> simp

theorem Iteration.arrival (h : Iteration matchingNode trains s)
    (harrival : Arrival matchingNode request s t) : Iteration matchingNode trains t := by
  refine ⟨fun current hidle hentry hmessage hcancel => ?_, fun hdone => ?_, fun hphase hglobal => ?_⟩
  · rw [harrival.phase] at hidle hentry
    rw [harrival.message] at hmessage
    rw [harrival.queue]
    rw [harrival.cancel, Bool.or_eq_true] at hcancel
    rcases hcancel with hcancel | hfollowup
    · obtain ⟨hflag, later, hmem, hmatching⟩ := h.cancelled current hidle hentry hmessage hcancel
      exact ⟨hflag, later, List.mem_append_left _ hmem, hmatching⟩
    · rw [hmessage] at hfollowup
      obtain ⟨hmatching, hflag⟩ := isFollowupRequest_eq_true hfollowup
      exact ⟨hflag, request, by simp, hmatching⟩
  · rw [harrival.phase] at hdone
    rw [harrival.nextTrainId, harrival.cancel]
    rcases h.finished hdone with hend | hcancel
    · exact .inl hend
    · exact .inr (by simp [hcancel])
  · rw [harrival.phase] at hphase
    rw [harrival.isGlobal] at hglobal
    have hsearched : searched t = searched s := by simp [searched, harrival.phase, harrival.nextTrainId]
    rw [harrival.hasMatches, harrival.eventId, hsearched]
    exact h.hasMatches hphase hglobal

theorem Iteration.step {input : Input Handle} (h : Iteration matchingNode trains s)
    (hstep : step matchingNode trains s input = some t) : Iteration matchingNode trains t := by
  rcases step_cases hstep with ⟨src, -, rfl, -⟩ | ⟨request, harrival, -⟩ | ⟨newNodeId, -, hflow⟩
  · exact ⟨h.cancelled, h.finished, h.hasMatches⟩
  · exact h.arrival harrival
  · exact h.flow hflow

/-! ## Whole runs -/

/-- With nothing left to do, every train has been answered for since each `IS_TRAIN` request and
each global identify, and so since the last one. -/
def AllReported (trains : List Train) (s : Server Handle) : Prop :=
  s.phase = .idle → s.queue = [] → ∀ before after,
    (∀ src, s.record = before ++ .identifyProducer isTrainEvent src :: after →
      ∀ train ∈ trains, .identified .producerIdentifiedUnknown train.nodeId isTrainEvent ∈ after) ∧
    (∀ src, s.record = before ++ .identifyGlobal src :: after →
      ∀ train ∈ trains, .identified .producerIdentifiedRange train.nodeId trainFindBase ∈ after ∧
        .identified .producerIdentifiedUnknown train.nodeId isTrainEvent ∈ after)

/-- A step calls `allocate_node`. -/
def CallsAllocate (s t : Server Handle) : Prop :=
  ∃ mode address, t.record = s.record ++ [.allocateNode mode address]

/-- A request with `ALLOCATE` is not cancelled and ends only after all trains; the step that ends it
calls `allocate_node` if and only if no train matches, and no other step does. -/
structure Allocates (trains : List Train) (s : Server Handle) (input : Input Handle)
    (t : Server Handle) : Prop where
  uncancelled : ∀ request, s.phase ≠ .idle → s.phase ≠ .entry → s.message = some request →
    HasFlag request.event allocate → s.cancelIteration = false ∧
      (s.phase = .iterationDone → trains.length ≤ s.nextTrainId)
  calls_iff : CallsAllocate s t ↔ (∃ newNodeId, input = .flow newNodeId) ∧ s.phase = .iterationDone ∧
    ∃ request, s.message = some request ∧ HasFlag request.event allocate ∧
      trains.length ≤ s.nextTrainId ∧ ∀ train ∈ trains, ¬ Matches request.event train

/-- A request is cut short only while a later one from the same node is in the queue. -/
def CutForLater (matchingNode : Handle → Handle → Bool) (trains : List Train) (s t : Server Handle) :
    Prop :=
  ∀ request, s.message = some request → s.phase = .iterate → t.phase = .iterationDone →
    s.nextTrainId < trains.length → ∃ later ∈ s.queue, matchingNode request.src later.src = true

theorem allReported_of_kept (h : ∀ sweep, Kept sweep trains s) : AllReported trains s := by
  intro hidle hqueue before after
  have hcovered := fun sweep => (h sweep).covered_of_idle hidle hqueue
  refine ⟨fun src heq train htrain => ?_, fun src heq train htrain => ?_⟩
  · have hafter := hcovered .isTrain before _ after heq (by simp [Sweep.isRequest]) train (by simpa using htrain)
    exact hafter _ (by simp [responses, Sweep.event, show isTrainEvent ≠ requestGlobalIdentify by decide])
  · have hafter := hcovered .global before _ after heq (by simp [Sweep.isRequest]) train (by simpa using htrain)
    exact ⟨hafter _ (by simp [responses, Sweep.event]), hafter _ (by simp [responses, Sweep.event])⟩

theorem not_callsAllocate (added : List (Record Handle)) (hrecord : t.record = s.record ++ added)
    (hadded : ∀ mode address, added ≠ [.allocateNode mode address]) : ¬ CallsAllocate s t := by
  rintro ⟨mode, address, heq⟩
  exact hadded mode address (List.append_cancel_left (hrecord.symm.trans heq))

theorem responses_ne (event nodeId : Nat) (mode : DccMode) (address : Nat) :
    (responses event nodeId : List (Record Handle)) ≠ [.allocateNode mode address] := by
  unfold responses
  split
  · simp
  · split <;> simp

/-- A step of the flow calls `allocate_node` at the end of an iteration without a match. -/
theorem flow_callsAllocate_iff (h : FlowStep trains newNodeId s t) :
    CallsAllocate s t ↔ s.phase = .iterationDone ∧ s.hasMatches = false ∧ s.isGlobal = false ∧
      HasFlag s.eventId allocate := by
  have hunchanged : t.record = s.record → ¬ CallsAllocate s t := fun hrecord =>
    not_callsAllocate [] (by rw [hrecord, List.append_nil]) (by simp)
  cases h with
  | allocate hphase hcond => exact iff_of_true ⟨_, _, rfl⟩ ⟨hphase, hcond⟩
  | done hphase hcond => exact iff_of_false (hunchanged rfl) fun h => hcond h.2
  | respond hphase =>
    exact iff_of_false (not_callsAllocate _ rfl (responses_ne _ _)) (by simp [hphase])
  | reply hphase => exact iff_of_false (not_callsAllocate _ rfl (by simp)) (by simp [hphase])
  | startSweep sweep hphase => exact iff_of_false (hunchanged (by simp [startIteration])) (by simp [hphase])
  | restart sweep hphase => exact iff_of_false (hunchanged (by simp)) (by simp [hphase])
  | wait hphase =>
    refine iff_of_false (hunchanged rfl) ?_
    rcases hphase with hphase | hphase <;> simp [hphase]
  | skip _ hphase | dequeue hphase | startFind hphase | finish hphase | report hphase | lookup hphase
  | found hphase | notFound hphase | noResponse hphase | next hphase =>
    exact iff_of_false (hunchanged rfl) (by simp [hphase])

theorem not_isSweep_of_allocate {event : Nat} (h : HasFlag event allocate) : isSweep event = false := by
  rw [← Bool.not_eq_true]
  intro hsweep
  obtain ⟨sweep, rfl⟩ := eq_event_of_isSweep hsweep
  exact not_hasFlag_allocate sweep h

/-- The end of the iteration of a request with `ALLOCATE`. -/
theorem Iteration.allocate_done (hwell : WellFormed s) (h : Iteration matchingNode trains s)
    (hphase : s.phase = .iterationDone) (hmessage : s.message = some request)
    (hflag : HasFlag request.event allocate) :
    trains.length ≤ s.nextTrainId ∧ s.isGlobal = false ∧
      (s.hasMatches = false ↔ ∀ train ∈ trains, ¬ Matches request.event train) := by
  obtain ⟨hevent, hglobal⟩ := hwell.serving (by simp [hphase]) (by simp [hphase]) request hmessage
  have hend : trains.length ≤ s.nextTrainId := by
    rcases h.finished hphase with hend | hcancel
    · exact hend
    · exact absurd hflag (h.cancelled request (by simp [hphase]) (by simp [hphase]) hmessage hcancel).1
  have hfind : s.isGlobal = false := by rw [hglobal, not_isSweep_of_allocate hflag]
  have hmatches := h.hasMatches (by simp [hphase]) hfind
  refine ⟨hend, hfind, ?_⟩
  rw [← Bool.not_eq_true, hmatches, hevent]
  simp [searched, hphase, List.take_of_length_le hend]

theorem allocates_of_step {input : Input Handle} (hwell : WellFormed s)
    (h : Iteration matchingNode trains s) (hstep : step matchingNode trains s input = some t) :
    Allocates trains s input t := by
  refine ⟨fun request hidle hentry hmessage hflag => ⟨?_, fun hphase => ?_⟩, ?_⟩
  · rw [← Bool.not_eq_true]
    exact fun hcancel => (h.cancelled request hidle hentry hmessage hcancel).1 hflag
  · exact (h.allocate_done hwell hphase hmessage hflag).1
  rcases step_cases hstep with ⟨src, -, rfl, hinput⟩ | ⟨request, harrival, hinput⟩ |
    ⟨newNodeId, rfl, hflow⟩
  · refine iff_of_false (not_callsAllocate _ rfl (by simp)) ?_
    rintro ⟨⟨newNodeId, rfl⟩, -⟩
    exact hinput newNodeId rfl
  · obtain ⟨entry, hrecord, hentry⟩ := harrival.record
    refine iff_of_false (not_callsAllocate _ hrecord fun mode address heq => ?_) ?_
    · exact hentry mode address (List.singleton_inj.mp heq)
    · rintro ⟨⟨newNodeId, rfl⟩, -⟩
      exact hinput newNodeId rfl
  · rw [flow_callsAllocate_iff hflow]
    constructor
    · rintro ⟨hphase, hnone, hglobal, hflag⟩
      obtain ⟨request, hmessage⟩ := hwell.busy (by simp [hphase])
      have hevent := (hwell.serving (by simp [hphase]) (by simp [hphase]) request hmessage).1
      rw [hevent] at hflag
      obtain ⟨hend, -, hmatches⟩ := h.allocate_done hwell hphase hmessage hflag
      exact ⟨⟨newNodeId, rfl⟩, hphase, request, hmessage, hflag, hend, hmatches.mp hnone⟩
    · rintro ⟨-, hphase, request, hmessage, hflag, -, hnone⟩
      obtain ⟨-, hglobal, hmatches⟩ := h.allocate_done hwell hphase hmessage hflag
      have hevent := (hwell.serving (by simp [hphase]) (by simp [hphase]) request hmessage).1
      exact ⟨hphase, hmatches.mpr hnone, hglobal, hevent ▸ hflag⟩

theorem cutForLater_of_step {input : Input Handle} (h : Iteration matchingNode trains s)
    (hstep : step matchingNode trains s input = some t) : CutForLater matchingNode trains s t := by
  intro request hmessage hphase hdone hlt
  have hcancel : s.cancelIteration = true := by
    rcases step_cases hstep with ⟨src, -, rfl, -⟩ | ⟨request, harrival, -⟩ | ⟨newNodeId, -, hflow⟩
    · simp [hphase] at hdone
    · simp [harrival.phase, hphase] at hdone
    · cases hflow with
      | finish _ hfinish =>
        rcases hfinish with hend | hcancel
        · omega
        · exact hcancel
      | _ => simp_all
  exact (h.cancelled request (by simp [hphase]) (by simp [hphase]) hmessage hcancel).2

/-- No request is lost, in any order of requests and steps of the flow, for any trains and any
notion of requests from the same node. -/
theorem no_request_lost (matchingNode : Handle → Handle → Bool) (trains : List Train)
    (inputs : List (Input Handle)) :
    Trace.Always (step matchingNode trains) (fun _ s => AllReported trains s) start inputs ∧
    Trace.EachStep (step matchingNode trains) (fun _ s input t =>
      Allocates trains s input t ∧ CutForLater matchingNode trains s t) start inputs := by
  have hinvariant : ∀ past s, Trace.run (step matchingNode trains) start past = some s →
      WellFormed s ∧ Iteration matchingNode trains s ∧ ∀ sweep, Kept sweep trains s := by
    intro past s hrun
    refine Trace.invariant_of_step (I := fun _ s => WellFormed s ∧ Iteration matchingNode trains s ∧
      ∀ sweep, Kept sweep trains s) ⟨?_, iteration_of_phase (.inl rfl), fun sweep => ?_⟩ ?_ hrun
    · exact ⟨fun _ => rfl, fun h => absurd rfl h, fun h => absurd rfl h⟩
    · have hpend : sweep.pending (start : Server Handle) = false := by cases sweep <;> rfl
      refine ⟨fun htrue => ?_, fun _ => .inl ?_⟩
      · rw [hpend] at htrue
        cases htrue
      · intro before request after heq
        simp [start] at heq
    · rintro past input s t ⟨hwell, hiteration, hkept⟩ hstep
      exact ⟨hwell.step hstep, hiteration.step hstep, fun sweep => (hkept sweep).step hwell hstep⟩
  constructor
  · intro past future s _ hrun
    exact allReported_of_kept (hinvariant past s hrun).2.2
  · intro past input future s t _ hrun hstep
    obtain ⟨hwell, hiteration, -⟩ := hinvariant past s hrun
    exact ⟨allocates_of_step hwell hiteration hstep, cutForLater_of_step hiteration hstep⟩

end OpenmrnCue.CommandStation.FindProtocolServer
