import OpenmrnCue.CommandStation.RailcomBroadcast

/-! The timeout scan of the railcom flow.  A tracker that reaches zero is found by the scan, and its
exit event is sent before the flow handles the next message, unless a DCC packet brings it to zero
behind the position of a scan that is under way. -/

namespace OpenmrnCue.CommandStation.RailcomFlow

/-- The flow is in the cycle of the timeout scan. -/
def inCycle (s : RailcomFlow) : Bool :=
  s.state = .checkTimeouts || s.state = .sendTimeoutEvent || s.state = .sendChannelEmpty

/-- The flow is not handling a message yet. -/
def beforeMessage (s : RailcomFlow) : Bool := s.state = .idle || s.state = .entry || s.inCycle

/-- Outside the scan, a flow that has no deletion pending has no tracker at zero. -/
def NoneExpired (s : RailcomFlow) : Prop :=
  s.inCycle = false → s.pendingDeletions = false → ∀ tracker ∈ s.trackers, 0 < tracker.count

/-- The input is a DCC packet that brings a tracker to zero which the scan has passed. -/
def overtakesScan (params : RailcomParams) (s : RailcomFlow) : RailcomInput → Bool
  | .dccPacket b0 b1 =>
    s.inCycle && params.dccToAddress b0 b1 != 0xFFFF &&
      s.trackers.any fun tracker => tracker.key < s.currentTimeoutKey && tracker.count = 1 &&
        tracker.key >>> 16 = params.dccToAddress b0 b1
  | _ => false

/-- The invariant: the trackers are in the order of their keys, and a tracker at zero has a deletion
pending that will find it. -/
structure Expiring (s : RailcomFlow) : Prop where
  sorted : s.trackers.Pairwise (·.key < ·.key)
  pending : ∀ tracker ∈ s.trackers, tracker.count = 0 → s.pendingDeletions = true
  ahead : ∀ tracker ∈ s.trackers, tracker.count = 0 → s.inCycle = true →
    s.currentTimeoutKey ≤ tracker.key

theorem expiring_start : Expiring start :=
  ⟨List.Pairwise.nil, by simp [start], by simp [start]⟩

theorem Expiring.noneExpired {s : RailcomFlow} (h : s.Expiring) : s.NoneExpired := by
  intro _ hpending tracker htracker
  by_contra hzero
  have htrue := h.pending tracker htracker (Nat.eq_zero_of_not_pos hzero)
  rw [hpending] at htrue
  cases htrue

/-- A step that leaves the trackers and the pending deletions alone keeps the invariant, if it does
not move the scan. -/
theorem Expiring.of_same {s s' : RailcomFlow} (h : s.Expiring) (htrackers : s'.trackers = s.trackers)
    (hpending : s'.pendingDeletions = s.pendingDeletions)
    (hcycle : s'.inCycle = true →
      (s.inCycle = true ∧ s'.currentTimeoutKey = s.currentTimeoutKey) ∨ s'.currentTimeoutKey = 0) :
    s'.Expiring := by
  refine ⟨htrackers ▸ h.sorted, ?_, ?_⟩
  · rw [htrackers, hpending]
    exact h.pending
  · rw [htrackers]
    intro tracker htracker hzero hin
    rcases hcycle hin with ⟨hin', hkey⟩ | hkey
    · rw [hkey]
      exact h.ahead tracker htracker hzero hin'
    · rw [hkey]
      exact Nat.zero_le _

theorem Expiring.of_outside {s s' : RailcomFlow} (h : s.Expiring)
    (htrackers : s'.trackers = s.trackers) (hpending : s'.pendingDeletions = s.pendingDeletions)
    (hout : s'.inCycle = false) : s'.Expiring :=
  h.of_same htrackers hpending fun hin => by rw [hout] at hin; cases hin

@[simp] theorem reportLocoAddressed_key (tracker : LocoTracker) :
    tracker.reportLocoAddressed.1.key = tracker.key := by
  unfold LocoTracker.reportLocoAddressed
  split_ifs <;> rfl

/-- A packet leaves the keys of the trackers alone. -/
theorem addressed_key (address : Nat) (tracker : LocoTracker) :
    (if tracker.key >>> 16 = address then tracker.reportLocoAddressed.1 else tracker).key =
      tracker.key := by
  split_ifs
  · exact reportLocoAddressed_key tracker
  · rfl

/-- A tracker at zero after a packet was at zero before or has just reached it. -/
theorem count_reportLocoAddressed {tracker : LocoTracker}
    (h : tracker.reportLocoAddressed.1.count = 0) :
    tracker.count = 0 ∨ (tracker.count = 1 ∧ tracker.reportLocoAddressed.2 = true) := by
  unfold LocoTracker.reportLocoAddressed at h ⊢
  split_ifs at h ⊢ with hpos
  · simp only at h
    exact Or.inr ⟨by omega, by simpa using h⟩
  · exact Or.inl (by omega)

/-- A DCC packet keeps the invariant if it does not overtake the scan. -/
theorem Expiring.handleDccPacket {params : RailcomParams} {s : RailcomFlow} (h : s.Expiring)
    {b0 b1 : Nat} (hovertakes : s.overtakesScan params (.dccPacket b0 b1) = false) :
    (s.handleDccPacket params b0 b1).Expiring := by
  unfold RailcomFlow.handleDccPacket
  simp only
  split_ifs with haddress
  · exact h
  · -- A tracker at zero was at zero before, or the packet has just brought it there.
    have hzero : ∀ tracker ∈ s.trackers,
        (if tracker.key >>> 16 = params.dccToAddress b0 b1 then tracker.reportLocoAddressed.1
          else tracker).count = 0 →
        tracker.count = 0 ∨ (tracker.count = 1 ∧ tracker.reportLocoAddressed.2 = true ∧
          tracker.key >>> 16 = params.dccToAddress b0 b1) := by
      intro tracker _ hcount
      split_ifs at hcount with hkey
      · exact (count_reportLocoAddressed hcount).imp id fun hone => ⟨hone.1, hone.2, hkey⟩
      · exact Or.inl hcount
    refine ⟨?_, ?_, ?_⟩
    · simp only [List.pairwise_map, addressed_key]
      exact h.sorted
    · intro _ hmem hcount
      obtain ⟨tracker, htracker, rfl⟩ := List.mem_map.mp hmem
      simp only [Bool.or_eq_true, List.any_eq_true]
      rcases hzero tracker htracker hcount with hold | ⟨-, hreached, haddr⟩
      · exact Or.inl (h.pending tracker htracker hold)
      · exact Or.inr ⟨tracker, htracker, by simp [haddr, hreached]⟩
    · intro _ hmem hcount hin
      obtain ⟨tracker, htracker, rfl⟩ := List.mem_map.mp hmem
      rw [addressed_key]
      rcases hzero tracker htracker hcount with hold | ⟨hone, -, haddr⟩
      · exact h.ahead tracker htracker hold hin
      · by_contra hbehind
        have htrue : s.overtakesScan params (.dccPacket b0 b1) = true := by
          simp only [overtakesScan, Bool.and_eq_true, bne_iff_ne, List.any_eq_true]
          refine ⟨⟨hin, haddress⟩, tracker, htracker, ?_⟩
          simpa [haddr, hone] using hbehind
        rw [hovertakes] at htrue
        cases htrue

theorem mem_insert {tracker other : LocoTracker} {trackers : List LocoTracker} :
    other ∈ LocoTracker.insert tracker trackers ↔ other = tracker ∨ other ∈ trackers := by
  induction trackers with
  | nil => simp [LocoTracker.insert]
  | cons first rest ih =>
    rw [LocoTracker.insert]
    split_ifs
    · simp
    · simp [ih, or_left_comm]

theorem sorted_insert {tracker : LocoTracker} {trackers : List LocoTracker}
    (h : trackers.Pairwise (·.key < ·.key)) (hnew : ∀ other ∈ trackers, other.key ≠ tracker.key) :
    (LocoTracker.insert tracker trackers).Pairwise (·.key < ·.key) := by
  induction trackers with
  | nil => simp [LocoTracker.insert]
  | cons first rest ih =>
    obtain ⟨hfirst, hrest⟩ := List.pairwise_cons.mp h
    rw [LocoTracker.insert]
    split_ifs with hlt
    · refine List.pairwise_cons.mpr ⟨?_, h⟩
      intro other hother
      rcases List.mem_cons.mp hother with rfl | hother
      · exact hlt
      · exact Nat.lt_trans hlt (hfirst other hother)
    · refine List.pairwise_cons.mpr ⟨?_, ih hrest fun other hother => hnew other (by simp [hother])⟩
      intro other hother
      rcases mem_insert.mp hother with rfl | hother
      · have hne := hnew first (by simp)
        omega
      · exact hfirst other hother

theorem seenCount_pos (count : Nat) : 0 < LocoTracker.seenCount count := by
  unfold LocoTracker.seenCount LocoTracker.maxCount
  split_ifs <;> omega

theorem Expiring.processCh2 {params : RailcomParams} {s : RailcomFlow} (h : s.Expiring) :
    (s.processCh2 params).Expiring := by
  rcases processCh2_cases params s with heq | ⟨address, key, -, -, -, -, ⟨hnone, heq⟩ | ⟨_, -, heq⟩⟩
  · rw [heq]
    exact h.of_outside rfl rfl rfl
  · rw [heq]
    refine ⟨sorted_insert h.sorted ?_, ?_, by simp [inCycle]⟩
    · intro other hother hkey
      exact List.find?_eq_none.mp hnone other hother (by simpa using hkey)
    · intro tracker htracker hzero
      rcases mem_insert.mp htracker with rfl | hold
      · exact absurd hzero (Nat.ne_of_gt (seenCount_pos (LocoTracker.seenCount 0)))
      · exact h.pending tracker hold hzero
  · rw [heq]
    refine ⟨?_, ?_, by simp [inCycle]⟩
    · rw [List.pairwise_map]
      refine h.sorted.imp fun {a b} hlt => ?_
      split_ifs <;> simp_all
    · intro _ htracker hzero
      obtain ⟨tracker, hold, rfl⟩ := List.mem_map.mp htracker
      split_ifs at hzero
      · exact absurd hzero (Nat.ne_of_gt (seenCount_pos tracker.count))
      · exact h.pending tracker hold hzero

/-- The first tracker of a kind has the least key of all trackers of the kind. -/
theorem key_le_of_find? {trackers : List LocoTracker} {p : LocoTracker → Bool}
    {found tracker : LocoTracker} (hsorted : trackers.Pairwise (·.key < ·.key))
    (hfound : trackers.find? p = some found) (hmem : tracker ∈ trackers) (hp : p tracker = true) :
    found.key ≤ tracker.key := by
  obtain ⟨-, front, back, rfl, hfront⟩ := List.find?_eq_some_iff_append.mp hfound
  rw [List.mem_append, List.mem_cons] at hmem
  rcases hmem with hmem | rfl | hmem
  · have hno := hfront tracker hmem
    simp [hp] at hno
  · exact Nat.le_refl _
  · have hback := (List.pairwise_cons.mp (List.pairwise_append.mp hsorted).2.1).1
    exact Nat.le_of_lt (hback tracker hmem)

/-- The scan deletes the first tracker at zero, so that the other ones are still ahead. -/
theorem Expiring.checkTimeouts {s : RailcomFlow} (h : s.Expiring)
    (hstate : s.state = .checkTimeouts) : s.checkTimeouts.Expiring := by
  have hin : s.inCycle = true := by simp [inCycle, hstate]
  have hexpired : ∀ tracker ∈ s.trackers, tracker.count = 0 → s.isExpired tracker = true := by
    intro tracker htracker hzero
    simpa [isExpired, hzero] using h.ahead tracker htracker hzero hin
  rcases checkTimeouts_cases s with ⟨-, heq⟩ | ⟨-, heq⟩ | ⟨found, -, hfound, heq⟩ | ⟨hnone, heq⟩
  · rw [heq]
    exact h.of_outside rfl rfl rfl
  · rw [heq]
    exact h.of_same rfl rfl fun _ => Or.inl ⟨hin, rfl⟩
  · rw [heq]
    refine ⟨h.sorted.filter _, ?_, ?_⟩
    · intro tracker htracker hzero
      exact h.pending tracker (List.mem_filter.mp htracker).1 hzero
    · intro tracker htracker hzero _
      have hmem := (List.mem_filter.mp htracker).1
      exact key_le_of_find? h.sorted hfound hmem (hexpired tracker hmem hzero)
  · rw [heq]
    refine ⟨h.sorted, ?_, by simp [inCycle]⟩
    intro tracker htracker hzero
    exact absurd (hexpired tracker htracker hzero) (List.find?_eq_none.mp hnone tracker htracker)

/-- An occupancy report changes nothing but the addresses and the queue. -/
theorem occupancy_frame (answer : DecoderAnswer) (s : RailcomFlow) (channels : List Nat) :
    (channels.foldl (occupancy answer) s).trackers = s.trackers ∧
    (channels.foldl (occupancy answer) s).pendingDeletions = s.pendingDeletions ∧
    (channels.foldl (occupancy answer) s).events = s.events ∧
    (channels.foldl (occupancy answer) s).currentTimeoutKey = s.currentTimeoutKey := by
  induction channels generalizing s with
  | nil => exact ⟨rfl, rfl, rfl, rfl⟩
  | cons channel rest ih =>
    obtain ⟨htrackers, hpending, hevents, hkey⟩ := ih (occupancy answer s channel)
    rw [List.foldl_cons, htrackers, hpending, hevents, hkey]
    unfold occupancy
    simp only
    split_ifs <;> exact ⟨rfl, rfl, rfl, rfl⟩

/-- Every state of the flow keeps the invariant. -/
theorem Expiring.runState {params : RailcomParams} {answer : DecoderAnswer} {s s' : RailcomFlow}
    (h : s.Expiring) (hrun : s.runState params answer = some s') : s'.Expiring := by
  unfold RailcomFlow.runState at hrun
  cases hstate : s.state <;> simp only [hstate] at hrun
  case idle =>
    split at hrun
    · cases hrun
    · cases hrun
      exact h.of_outside rfl rfl rfl
  case entry =>
    cases hrun
    rcases entry_cases params answer s with ⟨-, heq⟩ | ⟨-, heq⟩ | ⟨-, -, heq⟩ | ⟨-, heq⟩
    · rw [heq]
      exact h.of_same rfl rfl fun _ => Or.inr rfl
    · obtain ⟨htrackers, hpending, -⟩ := occupancy_frame answer s (List.range params.size)
      rw [heq]
      exact h.of_outside htrackers hpending rfl
    · rw [heq]
      exact h.of_outside rfl rfl rfl
    · rw [heq]
      exact h.of_outside rfl rfl rfl
  case checkTimeouts =>
    cases hrun
    exact h.checkTimeouts hstate
  case processCh2 =>
    cases hrun
    exact h.processCh2
  case processCh1 =>
    cases hrun
    unfold RailcomFlow.processCh1
    simp only
    split_ifs <;> exact h.of_outside rfl rfl rfl
  case prepareCh1On =>
    cases hrun
    unfold RailcomFlow.prepareCh1On
    simp only
    split_ifs <;> exact h.of_outside rfl rfl rfl
  case sendTimeoutEvent | sendChannelEmpty =>
    cases hrun
    exact h.of_same rfl rfl fun _ => Or.inl ⟨by simp [inCycle, hstate], rfl⟩
  case sendCh2Event | sendInvalid | sendEvent | finish =>
    cases hrun
    exact h.of_outside rfl rfl rfl

theorem Expiring.step {params : RailcomParams} {s s' : RailcomFlow} {input : RailcomInput}
    (h : s.Expiring) (hovertakes : s.overtakesScan params input = false)
    (hstep : s.step params input = some s') : s'.Expiring := by
  cases input with
  | arrive message =>
    cases hstep
    exact h.of_same rfl rfl fun hin => Or.inl ⟨hin, rfl⟩
  | dccPacket b0 b1 =>
    cases hstep
    exact h.handleDccPacket hovertakes
  | flow answer => exact h.runState hstep

/-! The exit event of a tracker at zero. -/

/-- The exit event of the locomotive and channel of a key. -/
def exitEvent (params : RailcomParams) (key : Nat) : Nat :=
  params.addressToEventid (key &&& 0xFFFF) (key >>> 16) false

/-- The tracker of `key` waits for the scan, its exit event is the next thing the flow sends, or the
event was sent after the first `sent` ones. -/
inductive Due (params : RailcomParams) (key sent : Nat) (s : RailcomFlow) : Prop where
  | waiting (tracker : LocoTracker) (mem : tracker ∈ s.trackers) (key : tracker.key = key)
      (zero : tracker.count = 0) (before : s.beforeMessage = true) (sorted : s.Expiring)
  | sending (state : s.state = .sendTimeoutEvent) (key : s.currentTimeoutKey = key)
  | sent (event : exitEvent params key ∈ s.events.drop sent)

section
variable {params : RailcomParams} {s s' : RailcomFlow} {key sent : Nat}

/-- The flow only adds to the events. -/
theorem events_runState {answer : DecoderAnswer} (hrun : s.runState params answer = some s') :
    ∃ more, s'.events = s.events ++ more := by
  have hsame : ∀ {t : RailcomFlow}, t.events = s.events → ∃ more, t.events = s.events ++ more :=
    fun heq => ⟨[], by rw [heq, List.append_nil]⟩
  unfold runState at hrun
  cases hstate : s.state <;> simp only [hstate] at hrun
  case idle =>
    split at hrun <;> cases hrun
    exact hsame rfl
  case entry =>
    cases hrun
    rcases entry_cases params answer s with ⟨-, heq⟩ | ⟨-, heq⟩ | ⟨-, -, heq⟩ | ⟨-, heq⟩ <;> rw [heq]
    · exact hsame rfl
    · exact hsame (occupancy_frame answer s (List.range params.size)).2.2.1
    · exact hsame rfl
    · exact hsame rfl
  case checkTimeouts =>
    cases hrun
    rcases checkTimeouts_cases s with ⟨-, heq⟩ | ⟨-, heq⟩ | ⟨_, -, -, heq⟩ | ⟨-, heq⟩ <;> rw [heq] <;>
      exact hsame rfl
  case processCh2 =>
    cases hrun
    rcases processCh2_cases params s with heq | ⟨_, _, -, -, -, -, ⟨-, heq⟩ | ⟨_, -, heq⟩⟩ <;>
      rw [heq] <;> exact hsame rfl
  case processCh1 =>
    cases hrun
    unfold processCh1
    simp only
    split_ifs <;> exact hsame rfl
  case prepareCh1On =>
    cases hrun
    unfold prepareCh1On
    simp only
    split_ifs <;> exact hsame rfl
  case finish =>
    cases hrun
    exact hsame rfl
  case sendTimeoutEvent | sendCh2Event | sendInvalid | sendChannelEmpty | sendEvent =>
    cases hrun
    exact ⟨_, rfl⟩

theorem events_step {input : RailcomInput} (hstep : s.step params input = some s') :
    ∃ more, s'.events = s.events ++ more := by
  cases input with
  | arrive message =>
    cases hstep
    exact ⟨[], (List.append_nil _).symm⟩
  | dccPacket b0 b1 =>
    cases hstep
    unfold handleDccPacket
    simp only
    split_ifs <;> exact ⟨[], (List.append_nil _).symm⟩
  | flow answer => exact events_runState hstep

theorem Due.waiting_runState {answer : DecoderAnswer} {tracker : LocoTracker}
    (hmem : tracker ∈ s.trackers) (hkey : tracker.key = key) (hzero : tracker.count = 0)
    (hbefore : s.beforeMessage = true) (h : s.Expiring)
    (hrun : s.runState params answer = some s') : Due params key sent s' := by
  have h' := h.runState hrun
  have hpending := h.pending tracker hmem hzero
  unfold runState at hrun
  cases hstate : s.state <;> simp only [hstate] at hrun
  case idle =>
    split at hrun <;> cases hrun
    exact .waiting tracker hmem hkey hzero rfl h'
  case entry =>
    cases hrun
    rcases entry_cases params answer s with ⟨-, heq⟩ | ⟨hno, -⟩ | ⟨hno, -⟩ | ⟨hno, -⟩
    · rw [heq] at h' ⊢
      exact .waiting tracker hmem hkey hzero rfl h'
    all_goals
      rw [hpending] at hno
      cases hno
  case checkTimeouts =>
    cases hrun
    have hin : s.inCycle = true := by simp [inCycle, hstate]
    have hexpired : s.isExpired tracker = true := by
      simpa [isExpired, hzero] using h.ahead tracker hmem hzero hin
    rcases checkTimeouts_cases s with ⟨hno, -⟩ | ⟨-, heq⟩ | ⟨found, -, hfound, heq⟩ | ⟨hnone, -⟩
    · rw [hpending] at hno
      cases hno
    · rw [heq] at h' ⊢
      exact .waiting tracker hmem hkey hzero rfl h'
    · rw [heq] at h' ⊢
      by_cases hthis : found.key = key
      · exact .sending rfl hthis
      · refine .waiting tracker (List.mem_filter.mpr ⟨hmem, ?_⟩) hkey hzero rfl h'
        simpa [hkey] using Ne.symm hthis
    · exact absurd hexpired (List.find?_eq_none.mp hnone tracker hmem)
  case sendTimeoutEvent | sendChannelEmpty =>
    cases hrun
    exact .waiting tracker hmem hkey hzero rfl h'
  all_goals simp [beforeMessage, inCycle, hstate] at hbefore

theorem Due.step {input : RailcomInput} (hlength : sent ≤ s.events.length)
    (h : Due params key sent s) (hovertakes : s.overtakesScan params input = false)
    (hstep : s.step params input = some s') : Due params key sent s' := by
  cases h with
  | waiting tracker hmem hkey hzero hbefore hexpiring =>
    have h' := hexpiring.step hovertakes hstep
    cases input with
    | arrive message =>
      cases hstep
      exact .waiting tracker hmem hkey hzero hbefore h'
    | dccPacket b0 b1 =>
      cases hstep
      unfold handleDccPacket at h' ⊢
      simp only at h' ⊢
      split_ifs at h' ⊢
      · exact .waiting tracker hmem hkey hzero hbefore h'
      · refine .waiting tracker (List.mem_map.mpr ⟨tracker, hmem, ?_⟩) hkey hzero hbefore h'
        simp [LocoTracker.reportLocoAddressed, hzero]
    | flow answer => exact Due.waiting_runState hmem hkey hzero hbefore hexpiring hstep
  | sending hstate hkey =>
    cases input with
    | arrive message =>
      cases hstep
      exact .sending hstate hkey
    | dccPacket b0 b1 =>
      cases hstep
      unfold handleDccPacket
      simp only
      split_ifs <;> exact .sending hstate hkey
    | flow answer =>
      simp only [RailcomFlow.step, runState, hstate] at hstep
      cases hstep
      refine .sent ?_
      simp [sendTimeoutEvent, send, List.drop_append_of_le_length hlength, exitEvent, hkey]
  | sent hevent =>
    refine .sent ?_
    obtain ⟨more, heq⟩ := events_step hstep
    rw [heq, List.drop_append_of_le_length hlength]
    exact List.mem_append_left _ hevent

end

/-- In a run in which no DCC packet brings a tracker to zero that a scan under way has passed, no
deletion is forgotten: outside the scan there is no tracker at zero without a deletion pending; and
the exit event of a tracker at zero is sent before the flow handles the next message. -/
theorem timeouts_kept (params : RailcomParams) (history : List RailcomInput)
    (hovertakes : Trace.EachStep (step params)
      (fun _ s input _ => s.overtakesScan params input = false) start history) :
    Trace.Always (step params) (fun _ s => s.NoneExpired) start history ∧
    ∀ past future s s', history = past ++ future →
      Trace.run (step params) start past = some s →
      Trace.run (step params) s future = some s' →
      ∀ tracker ∈ s.trackers, tracker.count = 0 → s.beforeMessage = true →
        s'.state = .entry → s'.pendingDeletions = false →
        exitEvent params tracker.key ∈ s'.events.drop s.events.length := by
  have hexpiring : Trace.Always (step params) (fun _ s => s.Expiring) start history :=
    Trace.always expiring_start (fun _ _ _ _ _ h hno hstep => h.step hno hstep) hovertakes
  refine ⟨fun past future s heq hrun => (hexpiring past future s heq hrun).noneExpired, ?_⟩
  rintro past future s s' rfl hpast hfuture tracker hmem hzero hbefore hentry hdone
  have hstart : Due params tracker.key s.events.length s :=
    .waiting tracker hmem rfl hzero hbefore (hexpiring past future s rfl hpast)
  have hlater : Trace.EachStep (step params)
      (fun _ s input _ => s.overtakesScan params input = false) s future := by
    intro mid input rest t u heq hrun hstep
    refine hovertakes (past ++ mid) input rest t u (by simp [heq]) ?_ hstep
    rw [Trace.run_append, hpast]
    exact hrun
  have hdue : Due params tracker.key s.events.length s' ∧ s.events.length ≤ s'.events.length :=
    Trace.invariant
      (I := fun _ t => Due params tracker.key s.events.length t ∧ s.events.length ≤ t.events.length)
      ⟨hstart, Nat.le_refl _⟩
      (fun _ _ t u _ hI hno hstep => by
        obtain ⟨more, heq⟩ := events_step hstep
        refine ⟨hI.1.step hI.2 hno hstep, ?_⟩
        rw [heq, List.length_append]
        exact Nat.le_add_right_of_le hI.2)
      hlater hfuture
  cases hdue.1 with
  | waiting other hother _ hzero' _ hexpiring' =>
    have hpending := hexpiring'.pending other hother hzero'
    rw [hdone] at hpending
    cases hpending
  | sending hstate _ =>
    rw [hentry] at hstate
    cases hstate
  | sent hevent => exact hevent

/-- One channel, and the addresses of the DCC standard. -/
def oneChannel : RailcomParams where
  size := 1
  nodeId := 0x050101011800
  isInvalid := fun _ => false
  adrMobileShort := 0x38
  adrConsistShort := 0x39
  maxMobileLong := 0x27
  longAddressMax := 10239

/-- A state of the flow in which the decoder has nothing to report. -/
def silent : RailcomInput := .flow ⟨false, 0, fun _ => 0⟩

/-- A channel 2 reply of the locomotive with a short address, and the flow handling it. -/
def reply (address : Nat) : List RailcomInput :=
  .arrive ⟨0, [], [0], address <<< 8⟩ :: List.replicate 5 silent

/-- The locomotives 3 and 5 reply; three packets go to 3 and four to 5, so that 5 is missing; the
next message starts the scan, which takes 5 off the map. -/
def missingFive : List RailcomInput :=
  reply 3 ++ reply 5 ++ List.replicate 3 (.dccPacket 3 0) ++ List.replicate 4 (.dccPacket 5 0) ++
    .arrive ⟨0xfe, [], [], 0⟩ :: List.replicate 3 silent

theorem timeouts_kept_missingFive :
    Trace.Always (step oneChannel) (fun _ s => s.NoneExpired) start (missingFive ++ [silent, silent]) :=
  (timeouts_kept oneChannel (missingFive ++ [silent, silent])
    (fun past input future s s' heq hrun hstep => by
      have hall : Trace.check (step oneChannel) (fun s input => !s.overtakesScan oneChannel input)
          start (missingFive ++ [silent, silent]) = true := by decide
      have hcheck := Trace.eachStep_of_check hall
      simpa using hcheck past input future s s' heq hrun hstep)).1

/-- The fourth packet to locomotive 3 goes out while the exit event of 5 is sent: its tracker is at
zero, and no deletion is pending when the flow goes on to the message. -/
theorem scan_overtaken :
    ¬ Trace.Always (step oneChannel) (fun _ s => s.NoneExpired) start
      (missingFive ++ [.dccPacket 3 0, silent, silent]) := by
  intro h
  have hrun : (Trace.run (step oneChannel) start
      (missingFive ++ [.dccPacket 3 0, silent, silent])).map
        (fun s => (s.inCycle, s.pendingDeletions, s.trackers.any (·.count = 0))) =
      some (false, false, true) := by decide
  obtain ⟨s, hs, hfields⟩ := Option.map_eq_some_iff.mp hrun
  simp only [Prod.mk.injEq, List.any_eq_true] at hfields
  obtain ⟨hcycle, hpending, tracker, htracker, hzero⟩ := hfields
  have hpos := h _ [] s (by simp) hs hcycle hpending tracker htracker
  simp at hzero
  omega

end OpenmrnCue.CommandStation.RailcomFlow
