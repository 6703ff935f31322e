import OpenmrnCue.CommandStation.ProgrammingTrackFrontend

/-! How a request is served.  Other requests may arrive and the timer may expire at any time, but
nothing of this has an influence on what the flow does with its request: that depends only on the
answers that it is told.  The flow reaches the end of its request whatever the answers are. -/

namespace OpenmrnCue.CommandStation

/-- The states that read an answer. -/
def FrontendState.consumes : FrontendState → Bool
  | .sendInitialResets | .enterServiceModeDone | .writePktSent | .writeCooldownDone
  | .writeVerifyCooldown | .writeVerifyCooldownDone | .checkNextBitOne | .cooldownNextBitOne
  | .checkFinalByte | .cooldownFinalVerify | .sendPagesetCooldown | .sendPagedCommand
  | .pagedWriteDone | .pagedWriteCooldownDone | .pagedHardResetExit | .writeReturned
  | .readReturned | .exitServiceModeDone => true
  | _ => false

/-- An answer that the flow read, with what it had last asked the backend. -/
structure Exchange where
  request : Option BackendRequest
  answer : FrontendAnswer
deriving DecidableEq, Repr

namespace ProgrammingTrackFrontend

/-- The exchange of a flow that reads this answer. -/
def exchange (s : ProgrammingTrackFrontend) (answer : FrontendAnswer) : Exchange :=
  ⟨s.backendRequests.getLast?, answer⟩

/-- The frontend serves its request to the end, with these exchanges on the way. -/
inductive Serves (params : FrontendParams) :
    ProgrammingTrackFrontend → List Exchange → ProgrammingTrackFrontend → Prop
  | done {s : ProgrammingTrackFrontend} (h : s.state = .idle) : Serves params s [] s
  | arrive {s s' t : ProgrammingTrackFrontend} {exchanges : List Exchange}
      (request : FrontendRequest) (h : s.state ≠ .idle)
      (hstep : s.step params (.arrive request) = some s') (hrest : Serves params s' exchanges t) :
      Serves params s exchanges t
  | timerExpired {s s' t : ProgrammingTrackFrontend} {exchanges : List Exchange}
      (h : s.state ≠ .idle) (hstep : s.step params .timerExpired = some s')
      (hrest : Serves params s' exchanges t) : Serves params s exchanges t
  | internal {s s' t : ProgrammingTrackFrontend} {exchanges : List Exchange}
      (answer : FrontendAnswer) (h : s.state ≠ .idle) (hconsumes : s.state.consumes = false)
      (hstep : s.step params (.flow answer) = some s') (hrest : Serves params s' exchanges t) :
      Serves params s exchanges t
  | answer {s s' t : ProgrammingTrackFrontend} {exchanges : List Exchange}
      (answer : FrontendAnswer) (hconsumes : s.state.consumes = true)
      (hstep : s.step params (.flow answer) = some s') (hrest : Serves params s' exchanges t) :
      Serves params s (s.exchange answer :: exchanges) t

/-- The flow without what happens around it. -/
def core (s : ProgrammingTrackFrontend) : ProgrammingTrackFrontend :=
  { s with queue := [], isRunning := false, timer := .stopped }

/-- The next state of the flow. -/
def next (params : FrontendParams) (c : ProgrammingTrackFrontend) (answer : FrontendAnswer) :
    ProgrammingTrackFrontend :=
  ((c.runState params answer).getD c).core

/-- What the flow does with its request, without what happens around it. -/
inductive Plays (params : FrontendParams) :
    ProgrammingTrackFrontend → List Exchange → ProgrammingTrackFrontend → Prop
  | done {c : ProgrammingTrackFrontend} (h : c.state = .idle) : Plays params c [] c
  | internal {c t : ProgrammingTrackFrontend} {exchanges : List Exchange}
      (answer : FrontendAnswer) (h : c.state ≠ .idle) (hconsumes : c.state.consumes = false)
      (hrest : Plays params (next params c answer) exchanges t) : Plays params c exchanges t
  | answer {c t : ProgrammingTrackFrontend} {exchanges : List Exchange}
      (answer : FrontendAnswer) (hconsumes : c.state.consumes = true)
      (hrest : Plays params (next params c answer) exchanges t) :
      Plays params c (c.exchange answer :: exchanges) t

variable {params : FrontendParams} {s s' t c c' : ProgrammingTrackFrontend}
variable {answer : FrontendAnswer} {exchanges : List Exchange}

@[simp] theorem core_state (s : ProgrammingTrackFrontend) : s.core.state = s.state := rfl

@[simp] theorem core_core (s : ProgrammingTrackFrontend) : s.core.core = s.core := rfl

theorem noteAck_eq (s : ProgrammingTrackFrontend) (answer : FrontendAnswer) :
    s.noteAck answer = { s with foundAck := s.foundAck || answer.hasAck } := by
  unfold noteAck
  cases answer.hasAck
  · simp
  · simp

theorem confirmOne_eq (s : ProgrammingTrackFrontend) (answer : FrontendAnswer) :
    s.confirmOne answer = { s with confirmedOnes :=
      if answer.hasAck then s.confirmedOnes ||| (1 <<< s.nextBitToRead) else s.confirmedOnes } := by
  unfold confirmOne
  split_ifs
  · rfl
  · rfl

/-- A timer that is stopped can be set. -/
theorem ping_of_stopped (htimer : s.timer = .stopped) : ∃ s', s.ping = some s' := by
  unfold ping
  by_cases hrunning : s.isRunning = true
  · exact ⟨s, if_pos hrunning⟩
  · refine ⟨{ s with timer := .armed, isRunning := true }, ?_⟩
    rw [if_neg hrunning, if_neg (not_not_intro htimer)]

theorem core_ping (h : s.ping = some s') : s'.core = s.core := by
  unfold ping at h
  split_ifs at h
  · cases h
    rfl
  · cases h
    rfl

theorem core_doneAndReturn {code : ResultCode} (h : s.doneAndReturn code = some s') :
    s'.core = s.core.returnWith code := by
  obtain ⟨u, hping, rfl⟩ := Option.map_eq_some_iff.mp h
  rw [← core_ping hping]
  rfl

theorem next_of_runState (hrun : c.runState params answer = some c') :
    next params c answer = c'.core := by
  unfold next
  rw [hrun]
  rfl

/-- The flow ends with its request, and the timer is set. -/
theorem core_done {code : ResultCode} (hdone : c.doneAndReturn code = some s')
    (hrun : s.core.runState params answer = c.core.doneAndReturn code) :
    s'.core = next params s.core answer := by
  obtain ⟨u, hping⟩ := ping_of_stopped (s := c.core) rfl
  have hcore : c.core.doneAndReturn code = some (u.returnWith code) := by
    rw [doneAndReturn, hping]
    rfl
  rw [next_of_runState (hrun.trans hcore), core_doneAndReturn hcore, core_doneAndReturn hdone]
  rfl

/-- What happens around the flow does not change its next state. -/
theorem core_runState (h : s.state ≠ .idle) (hrun : s.runState params answer = some s') :
    s'.core = next params s.core answer := by
  have hcore : s.core.state = s.state := rfl
  have hrequest : s.core.request = s.request := rfl
  cases hstate : s.state <;> simp only [runState, hstate] at hrun
  case idle => exact absurd hstate h
  case actServiceMode =>
    cases hcmd : s.request.cmd
    all_goals simp only [actServiceMode, hcmd, directWritePacket] at hrun
    case directReadBit | pomWriteByte | pomReadByte | pomWriteBit | pagedReadByte |
        exitServiceMode =>
      refine core_done hrun ?_
      simp only [runState, hcore, hstate, actServiceMode, hrequest, hcmd, directWritePacket]
      rfl
    all_goals
      cases hrun
      unfold next
      simp only [runState, hcore, hstate, actServiceMode, hrequest, hcmd, directWritePacket]
      rfl
  case writeCooldownDone =>
    unfold writeCooldownDone at hrun
    split_ifs at hrun with hshort
    · cases hrun
      unfold next
      simp only [runState, hcore, hstate, writeCooldownDone, if_pos hshort]
      rfl
    cases hcmd : s.request.cmd
    all_goals simp only [noteAck_eq, hcmd, directVerifyPacket] at hrun
    case directWriteByte | directWriteBit =>
      cases hrun
      unfold next
      simp only [runState, hcore, hstate, writeCooldownDone, if_neg hshort, noteAck_eq, hrequest,
        hcmd, directVerifyPacket]
      rfl
    all_goals
      refine core_done hrun ?_
      simp only [runState, hcore, hstate, writeCooldownDone, if_neg hshort, noteAck_eq, hrequest,
        hcmd, directVerifyPacket]
      rfl
  case writeVerifyCooldownDone =>
    unfold writeVerifyCooldownDone at hrun
    split_ifs at hrun with hshort
    · cases hrun
      unfold next
      simp only [runState, hcore, hstate, writeVerifyCooldownDone, if_pos hshort]
      rfl
    · simp only [noteAck_eq] at hrun
      refine core_done hrun ?_
      simp only [runState, hcore, hstate, writeVerifyCooldownDone, if_neg hshort, noteAck_eq]
      rfl
  case checkFinalByte =>
    unfold checkFinalByte at hrun
    split_ifs at hrun with hshort hack
    · cases hrun
      unfold next
      simp only [runState, hcore, hstate, checkFinalByte, if_pos hshort]
      rfl
    · refine core_done hrun ?_
      simp only [runState, hcore, hstate, checkFinalByte, if_neg hshort, if_pos hack]
    · cases hrun
      unfold next
      simp only [runState, hcore, hstate, checkFinalByte, if_neg hshort, if_neg hack]
      rfl
  case cooldownFinalVerify =>
    unfold cooldownFinalVerify at hrun
    split_ifs at hrun with hshort hack
    · cases hrun
      unfold next
      simp only [runState, hcore, hstate, cooldownFinalVerify, if_pos hshort]
      rfl
    · refine core_done hrun ?_
      simp only [runState, hcore, hstate, cooldownFinalVerify, if_neg hshort, if_pos hack]
    · refine core_done hrun ?_
      simp only [runState, hcore, hstate, cooldownFinalVerify, if_neg hshort, if_neg hack]
  case sendPagedCommand =>
    unfold sendPagedCommand at hrun
    split_ifs at hrun with hshort
    · cases hrun
      unfold next
      simp only [runState, hcore, hstate, sendPagedCommand, if_pos hshort]
      rfl
    cases hcmd : s.request.cmd
    all_goals simp only [hcmd] at hrun
    case pagedWriteByte | pagedVerifyByte =>
      cases hrun
      unfold next
      simp only [runState, hcore, hstate, sendPagedCommand, if_neg hshort, hrequest, hcmd]
      rfl
    all_goals
      refine core_done hrun ?_
      simp only [runState, hcore, hstate, sendPagedCommand, if_neg hshort, hrequest, hcmd]
      rfl
  case pagedHardResetExit =>
    unfold pagedHardResetExit at hrun
    split_ifs at hrun with hshort
    · cases hrun
      unfold next
      simp only [runState, hcore, hstate, pagedHardResetExit, if_pos hshort]
      rfl
    · simp only [noteAck_eq] at hrun
      refine core_done hrun ?_
      simp only [runState, hcore, hstate, pagedHardResetExit, if_neg hshort, noteAck_eq]
      rfl
  all_goals
    unfold next
    simp only [runState, hcore, hstate]
    cases hrun
  case entry =>
    cases hcmd : s.request.cmd <;> simp only [entry, hrequest, hcmd] <;> rfl
  case fillPomWriteBytePacket =>
    cases haddr : s.request.addrType <;>
      simp only [fillPomWriteBytePacket, hrequest, haddr] <;> rfl
  case fillPomReadBytePacket =>
    cases haddr : s.request.addrType <;>
      simp only [fillPomReadBytePacket, hrequest, haddr] <;> rfl
  case writeReturned =>
    cases hcode : answer.errorCode
    · simp only [writeReturned, hcode, apply_ite core, Option.getD_some]
      rfl
    · simp only [writeReturned, hcode]
      rfl
    · simp only [writeReturned, hcode]
      rfl
  case exitServiceMode =>
    have hmode : s.core.inServiceMode = s.inServiceMode := rfl
    have hstop : s.core.stopWait = s.core := rfl
    obtain ⟨hstopCore, hstopMode⟩ : s.stopWait.core = s.core ∧
        s.stopWait.inServiceMode = s.inServiceMode := by
      unfold stopWait
      split_ifs
      · exact ⟨rfl, rfl⟩
      · exact ⟨rfl, rfl⟩
    simp only [exitServiceMode, hstop, hmode, hstopMode, apply_ite core, Option.getD_some]
    by_cases hactive : (!s.inServiceMode) = true
    · rw [if_pos hactive, if_pos hactive]
      exact congrArg (returnWith · .ok) hstopCore
    rw [if_neg hactive, if_neg hactive]
    by_cases hbackend : (!params.hasBackend) = true
    · rw [if_pos hbackend, if_pos hbackend]
      exact congrArg (fun u => { u with inServiceMode := false }.returnWith .ok) hstopCore
    · rw [if_neg hbackend, if_neg hbackend]
      exact congrArg (fun u => { u with inServiceMode := false }.invoke .exitServiceModeDone
        .exitServiceMode) hstopCore
  all_goals try rfl
  all_goals
    simp only [enterServiceMode, sendInitialResets, enterServiceModeDone, writePktSent,
      writeVerifyCooldown, checkNextBitOne, cooldownNextBitOne, sendPagesetCooldown,
      pagedWriteDone, pagedWriteCooldownDone, readReturned, noteAck_eq, confirmOne_eq,
      apply_ite core, Option.getD_some]
    rfl

/-- A flow whose timer is stopped has a next state. -/
theorem exists_runState (params : FrontendParams) (h : s.state ≠ .idle)
    (htimer : s.timer = .stopped) (answer : FrontendAnswer) :
    ∃ s', s.runState params answer = some s' := by
  have hdone : ∀ (u : ProgrammingTrackFrontend) (code : ResultCode), u.timer = .stopped →
      ∃ s', u.doneAndReturn code = some s' := by
    intro u code hu
    obtain ⟨v, hping⟩ := ping_of_stopped hu
    refine ⟨v.returnWith code, ?_⟩
    rw [doneAndReturn, hping]
    rfl
  have hack : (s.noteAck answer).timer = .stopped := by
    rw [noteAck_eq]
    exact htimer
  unfold runState
  cases hstate : s.state
  case idle => exact absurd hstate h
  case actServiceMode =>
    show ∃ s', s.actServiceMode = some s'
    unfold actServiceMode
    split
    · exact ⟨_, rfl⟩
    · exact ⟨_, rfl⟩
    · exact ⟨_, rfl⟩
    · split
      · exact hdone s _ htimer
      · exact ⟨_, rfl⟩
  case writeCooldownDone =>
    show ∃ s', s.writeCooldownDone params answer = some s'
    unfold writeCooldownDone
    split_ifs
    · exact ⟨_, rfl⟩
    dsimp only
    split
    · exact hdone _ _ hack
    · exact ⟨_, rfl⟩
  case writeVerifyCooldownDone =>
    show ∃ s', s.writeVerifyCooldownDone answer = some s'
    unfold writeVerifyCooldownDone
    split
    · exact ⟨_, rfl⟩
    · exact hdone _ _ hack
  case checkFinalByte =>
    show ∃ s', s.checkFinalByte params answer = some s'
    unfold checkFinalByte
    split_ifs
    · exact ⟨_, rfl⟩
    · exact hdone _ _ htimer
    · exact ⟨_, rfl⟩
  case cooldownFinalVerify =>
    show ∃ s', s.cooldownFinalVerify answer = some s'
    unfold cooldownFinalVerify
    split
    · exact ⟨_, rfl⟩
    · exact hdone _ _ htimer
  case sendPagedCommand =>
    show ∃ s', s.sendPagedCommand answer = some s'
    unfold sendPagedCommand
    split_ifs
    · exact ⟨_, rfl⟩
    split
    · exact ⟨_, rfl⟩
    · exact ⟨_, rfl⟩
    · exact hdone _ _ htimer
  case pagedHardResetExit =>
    show ∃ s', s.pagedHardResetExit answer = some s'
    unfold pagedHardResetExit
    split
    · exact ⟨_, rfl⟩
    · exact hdone _ _ hack
  all_goals exact ⟨_, rfl⟩

theorem core_timeout (s : ProgrammingTrackFrontend) : s.timeout.core = s.core := by
  unfold timeout
  dsimp only
  split_ifs
  · rfl
  · rfl

theorem ne_idle_of_consumes (h : s.state.consumes = true) : s.state ≠ .idle := by
  intro hidle
  rw [hidle] at h
  cases h

/-- Only the answers decide what the flow does. -/
theorem Serves.plays (h : Serves params s exchanges t) :
    Plays params s.core exchanges t.core := by
  induction h with
  | done h => exact .done h
  | arrive request h hstep hrest ih =>
    cases hstep
    exact ih
  | @timerExpired s s' t exchanges h hstep hrest ih =>
    by_cases htimer : s.timer = .stopped
    · rw [step, if_pos htimer] at hstep
      cases hstep
    · rw [step, if_neg htimer] at hstep
      cases hstep
      exact core_timeout s ▸ ih
  | internal answer h hconsumes hstep hrest ih =>
    exact .internal answer h hconsumes (core_runState h hstep ▸ ih)
  | @answer s s' t exchanges answer hconsumes hstep hrest ih =>
    rw [core_runState (ne_idle_of_consumes hconsumes) hstep] at ih
    exact Plays.answer (c := s.core) answer hconsumes ih

/-- A frontend can wait until its timer is stopped. -/
theorem exists_stopped (params : FrontendParams) (h : s.state ≠ .idle) :
    ∃ u : ProgrammingTrackFrontend, u.timer = .stopped ∧ u.core = s.core ∧
      ∀ exchanges t, Serves params u exchanges t → Serves params s exchanges t := by
  by_cases htimer : s.timer = .stopped
  · exact ⟨s, htimer, rfl, fun _ _ hserves => hserves⟩
  · refine ⟨s.timeout, ?_, core_timeout s, fun exchanges t hserves => ?_⟩
    · unfold timeout
      dsimp only
      split_ifs
      · rfl
      · rfl
    · exact .timerExpired h (if_neg htimer) hserves

/-- Any play of the flow is one that the frontend can go through. -/
theorem Plays.serves (h : Plays params c exchanges t) (s : ProgrammingTrackFrontend)
    (hs : s.core = c) : ∃ t', Serves params s exchanges t' ∧ t'.core = t.core := by
  induction h generalizing s with
  | done h =>
    subst hs
    exact ⟨s, .done h, rfl⟩
  | internal answer h hconsumes hrest ih =>
    subst hs
    obtain ⟨u, htimer, hcore, hwait⟩ := exists_stopped (s := s) params h
    have hstate : u.core.state = s.core.state := congrArg state hcore
    rw [core_state, core_state] at hstate
    obtain ⟨u', hrun⟩ := exists_runState params (hstate ▸ h) htimer answer
    obtain ⟨t', hserves, ht⟩ := ih u' (hcore ▸ core_runState (hstate ▸ h) hrun)
    exact ⟨t', hwait _ _ (.internal answer (hstate ▸ h) (hstate ▸ hconsumes) hrun hserves), ht⟩
  | answer answer hconsumes hrest ih =>
    subst hs
    have h := ne_idle_of_consumes hconsumes
    obtain ⟨u, htimer, hcore, hwait⟩ := exists_stopped (s := s) params h
    have hstate : u.core.state = s.core.state := congrArg state hcore
    rw [core_state, core_state] at hstate
    have hrequests : u.exchange answer = s.core.exchange answer := hcore ▸ rfl
    obtain ⟨u', hrun⟩ := exists_runState params (hstate ▸ h) htimer answer
    obtain ⟨t', hserves, ht⟩ := ih u' (hcore ▸ core_runState (hstate ▸ h) hrun)
    refine ⟨t', hrequests ▸ hwait _ _ ?_, ht⟩
    exact .answer answer (hstate ▸ hconsumes) hrun hserves

theorem plays_idle_iff (h : c.state = .idle) :
    Plays params c exchanges t ↔ exchanges = [] ∧ t = c := by
  constructor
  · intro hplays
    cases hplays with
    | done => exact ⟨rfl, rfl⟩
    | internal answer hidle => exact absurd h hidle
    | answer answer hconsumes => exact absurd h (ne_idle_of_consumes hconsumes)
  · rintro ⟨rfl, rfl⟩
    exact .done h

theorem plays_internal_iff (h : c.state ≠ .idle) (hconsumes : c.state.consumes = false) :
    Plays params c exchanges t ↔ ∃ answer, Plays params (next params c answer) exchanges t := by
  constructor
  · intro hplays
    cases hplays with
    | done hidle => exact absurd hidle h
    | internal answer _ _ hrest => exact ⟨answer, hrest⟩
    | answer answer hreply => rw [hconsumes] at hreply; cases hreply
  · rintro ⟨answer, hrest⟩
    exact .internal answer h hconsumes hrest

theorem plays_answer_iff (hconsumes : c.state.consumes = true) :
    Plays params c exchanges t ↔ ∃ answer rest, exchanges = c.exchange answer :: rest ∧
      Plays params (next params c answer) rest t := by
  constructor
  · intro hplays
    cases hplays with
    | done hidle => exact absurd hidle (ne_idle_of_consumes hconsumes)
    | internal answer _ hinternal => rw [hconsumes] at hinternal; cases hinternal
    | answer answer _ hrest => exact ⟨answer, _, rfl, hrest⟩
  · rintro ⟨answer, rest, rfl, hrest⟩
    exact .answer answer hconsumes hrest

/-- A bound for the number of states that the flow still goes through. -/
def rank (c : ProgrammingTrackFrontend) : Nat :=
  match c.state with
  | .idle => 0
  | .pgmShort | .exitServiceModeDone => 1
  | .writeVerifyCooldownDone | .pagedHardResetExit | .cooldownFinalVerify | .exitServiceMode => 2
  | .checkFinalByte | .writeVerifyCooldown | .pagedWriteCooldownDone => 3
  | .writeCooldownDone | .pagedWriteDone => 4
  | .writePktSent | .sendPagedCommand => 5
  | .sendPagePreset | .sendPagesetCooldown => 6
  | .cooldownNextBitOne => 3 * (7 - c.nextBitToRead) + 4
  | .checkNextBitOne => 3 * (7 - c.nextBitToRead) + 5
  | .readNextBit => 3 * (7 - c.nextBitToRead) + 6
  | .directReadByte => 28
  | .actServiceMode => 29
  | .enterServiceModeDone => 30
  | .sendInitialResets => 31
  | .enterServiceMode => 32
  | .writeReturned | .readReturned => 3 * (3 - c.numTry) + 1
  | .fillPomWriteBytePacket | .fillPomReadBytePacket => 3 * (3 - c.numTry) + 2
  | .pomWriteByte | .pomReadByte => 3 * (3 - c.numTry) + 3
  | .entry => 33

/-- The bit that the flow reads is one of a byte. -/
def ReadsByte (c : ProgrammingTrackFrontend) : Prop :=
  c.state ∈ [.readNextBit, .checkNextBitOne, .cooldownNextBitOne] → c.nextBitToRead ≤ 7

theorem rank_done {code : ResultCode} (h : c.doneAndReturn code = some c') (hrank : 0 < s.rank) :
    c'.rank < s.rank ∧ c'.ReadsByte := by
  obtain ⟨u, hping, rfl⟩ := Option.map_eq_some_iff.mp h
  exact ⟨hrank, fun hstate => by simp [returnWith] at hstate⟩

/-- With every state the flow comes closer to the end. -/
theorem rank_runState (h : c.state ≠ .idle) (hreads : c.ReadsByte)
    (hrun : c.runState params answer = some c') : c'.rank < c.rank ∧ c'.ReadsByte := by
  unfold ReadsByte at hreads
  cases hstate : c.state <;> simp only [runState, hstate] at hrun
  case idle => exact absurd hstate h
  case entry =>
    cases hrun
    unfold entry
    split <;> simp [rank, ReadsByte, goto, returnWith, hstate]
  case enterServiceMode | exitServiceMode | enterServiceModeDone | sendInitialResets |
      sendPagesetCooldown | writePktSent | writeVerifyCooldown | pagedWriteDone |
      pagedWriteCooldownDone =>
    cases hrun
    simp only [enterServiceMode, exitServiceMode, sendInitialResets, enterServiceModeDone,
      writePktSent, writeVerifyCooldown, sendPagesetCooldown, pagedWriteDone,
      pagedWriteCooldownDone, noteAck_eq]
    split_ifs <;> simp [rank, ReadsByte, goto, invoke, returnWith, hstate]
  case actServiceMode =>
    unfold actServiceMode at hrun
    split at hrun
    case h_4 =>
      split at hrun
      · exact rank_done hrun (by simp [rank, hstate])
      · cases hrun
        simp [rank, ReadsByte, invoke, hstate]
    all_goals
      cases hrun
      simp [rank, ReadsByte, goto, hstate]
  case writeCooldownDone =>
    unfold writeCooldownDone at hrun
    split at hrun
    · cases hrun
      simp [rank, ReadsByte, goto, hstate]
    dsimp only at hrun
    split at hrun
    · exact rank_done hrun (by simp [rank, hstate])
    · cases hrun
      simp [rank, ReadsByte, invoke, hstate]
  case writeVerifyCooldownDone =>
    unfold writeVerifyCooldownDone at hrun
    split at hrun
    · cases hrun
      simp [rank, ReadsByte, goto, hstate]
    · exact rank_done hrun (by simp [rank, hstate])
  case checkFinalByte =>
    unfold checkFinalByte at hrun
    split_ifs at hrun
    · cases hrun
      simp [rank, ReadsByte, goto, hstate]
    · exact rank_done hrun (by simp [rank, hstate])
    · cases hrun
      simp [rank, ReadsByte, invoke, hstate]
  case cooldownFinalVerify =>
    unfold cooldownFinalVerify at hrun
    split at hrun
    · cases hrun
      simp [rank, ReadsByte, goto, hstate]
    · exact rank_done hrun (by simp [rank, hstate])
  case sendPagedCommand =>
    unfold sendPagedCommand at hrun
    split at hrun
    · cases hrun
      simp [rank, ReadsByte, goto, hstate]
    split at hrun
    case h_3 =>
      exact rank_done hrun (by simp [rank, hstate])
    all_goals
      cases hrun
      simp [rank, ReadsByte, invoke, hstate]
  case pagedHardResetExit =>
    unfold pagedHardResetExit at hrun
    split at hrun
    · cases hrun
      simp [rank, ReadsByte, goto, hstate]
    · exact rank_done hrun (by simp [rank, hstate])
  case checkNextBitOne =>
    cases hrun
    have hbit := hreads (by simp [hstate])
    simp only [checkNextBitOne, confirmOne_eq]
    split
    · simp [rank, ReadsByte, goto, hstate]
    · simp [rank, ReadsByte, invoke, hstate, hbit]
  case cooldownNextBitOne =>
    cases hrun
    have hbit := hreads (by simp [hstate])
    simp only [cooldownNextBitOne, confirmOne_eq]
    by_cases hshort : answer.hasShortCircuit = true
    · rw [if_pos hshort]
      simp [rank, ReadsByte, goto, hstate]
    rw [if_neg hshort]
    by_cases hlast : c.nextBitToRead = 7
    · rw [if_pos hlast]
      simp [rank, ReadsByte, invoke, hstate]
    · rw [if_neg hlast]
      simp only [rank, ReadsByte, goto, hstate]
      exact ⟨by omega, fun _ => by omega⟩
  case readNextBit =>
    cases hrun
    have hbit := hreads (by simp [hstate])
    simp [readNextBit, rank, ReadsByte, invoke, hstate, hbit]
  case fillPomWriteBytePacket | fillPomReadBytePacket =>
    cases hrun
    simp only [fillPomWriteBytePacket, fillPomReadBytePacket]
    split <;> simp [rank, ReadsByte, goto, returnWith, hstate]
  case writeReturned =>
    cases hrun
    unfold writeReturned
    dsimp only
    split
    · by_cases hbusy : answer.seenRailcomBusy = true
      · rw [if_pos hbusy]
        by_cases htries : c.numTry + 1 < 3
        · rw [if_pos htries]
          simp only [rank, ReadsByte, goto, hstate]
          exact ⟨by omega, by simp⟩
        · rw [if_neg htries]
          simp [rank, ReadsByte, returnWith, hstate]
      · rw [if_neg hbusy]
        simp [rank, ReadsByte, returnWith, hstate]
    · simp [rank, ReadsByte, returnWith, hstate]
    · simp [rank, ReadsByte, returnWith, hstate]
  case readReturned =>
    cases hrun
    unfold readReturned
    dsimp only
    by_cases hok : answer.errorCode = .ok
    · rw [if_pos hok]
      simp [rank, ReadsByte, returnWith, hstate]
    rw [if_neg hok]
    by_cases htries : c.numTry + 1 < 3
    · rw [if_pos htries]
      simp only [rank, ReadsByte, goto, hstate]
      exact ⟨by omega, by simp⟩
    · rw [if_neg htries]
      simp [rank, ReadsByte, returnWith, hstate]
  all_goals
    cases hrun
    simp [rank, ReadsByte, goto, invoke, returnWith, directReadByte, sendPagePreset, pgmShort,
      hstate]

/-- Whatever the answers are, the flow reaches the end of its request. -/
theorem exists_plays (params : FrontendParams) (htimer : c.timer = .stopped)
    (hreads : c.ReadsByte) (answers : Nat → FrontendAnswer) :
    ∃ exchanges t, Plays params c exchanges t ∧
      exchanges.map (·.answer) = (List.range exchanges.length).map answers := by
  induction hrank : c.rank using Nat.strongRecOn generalizing c answers with
  | _ n ih =>
    by_cases hidle : c.state = .idle
    · exact ⟨[], c, .done hidle, rfl⟩
    obtain ⟨c', hrun⟩ := exists_runState params hidle htimer (answers 0)
    obtain ⟨hless, hreads'⟩ := rank_runState hidle hreads hrun
    have hnext : next params c (answers 0) = c'.core := next_of_runState hrun
    cases hconsumes : c.state.consumes
    · obtain ⟨exchanges, t, hplays, hanswers⟩ :=
        ih c'.core.rank (hrank ▸ hless) (c := c'.core) rfl hreads' answers rfl
      exact ⟨exchanges, t, .internal (answers 0) hidle hconsumes (hnext ▸ hplays), hanswers⟩
    · obtain ⟨exchanges, t, hplays, hanswers⟩ :=
        ih c'.core.rank (hrank ▸ hless) (c := c'.core) rfl hreads' (fun n => answers (n + 1)) rfl
      refine ⟨c.exchange (answers 0) :: exchanges, t, .answer _ hconsumes (hnext ▸ hplays), ?_⟩
      rw [List.map_cons, List.length_cons, List.range_succ_eq_map, List.map_cons, List.map_map,
        hanswers]
      rfl

/-- Whatever the answers are, a request is served to the end. -/
theorem exists_serves (params : FrontendParams) (hreads : s.ReadsByte)
    (answers : Nat → FrontendAnswer) :
    ∃ exchanges t, Serves params s exchanges t ∧
      exchanges.map (·.answer) = (List.range exchanges.length).map answers := by
  obtain ⟨exchanges, t, hplays, hanswers⟩ :=
    exists_plays (c := s.core) params rfl hreads answers
  obtain ⟨t', hserves, -⟩ := hplays.serves s rfl
  exact ⟨exchanges, t', hserves, hanswers⟩

/-- The next state of a flow that ends with its request. -/
theorem next_done {code : ResultCode} (htimer : c'.timer = .stopped)
    (hrun : c.runState params answer = c'.doneAndReturn code) :
    next params c answer = (c'.returnWith code).core := by
  obtain ⟨u, hping⟩ := ping_of_stopped htimer
  have hdone : c'.doneAndReturn code = some (u.returnWith code) := by
    rw [doneAndReturn, hping]
    rfl
  rw [next_of_runState (hrun.trans hdone), core_doneAndReturn hdone]
  rfl

/-- A state that reads no answer. -/
theorem internal_to (hidle : c.state ≠ .idle) (hconsumes : c.state.consumes = false)
    (hrun : ∀ answer, c.runState params answer = some c') (hplays : Plays params c exchanges t) :
    Plays params c'.core exchanges t := by
  obtain ⟨answer, hrest⟩ := (plays_internal_iff hidle hconsumes).mp hplays
  rwa [next_of_runState (hrun answer)] at hrest

end ProgrammingTrackFrontend

end OpenmrnCue.CommandStation
