import OpenmrnCue.CommandStation.ProgrammingTrackFrontend

/-! Service mode is always left.  Every way in which an operation of service mode ends arms the timer or
queues the request that leaves service mode, and the timer queues that request when it expires. -/

namespace OpenmrnCue.CommandStation

/-- The states in which an operation of service mode is under way. -/
def FrontendState.inOperation : FrontendState → Bool
  | .sendInitialResets | .enterServiceModeDone | .actServiceMode | .writePktSent
  | .writeCooldownDone | .writeVerifyCooldown | .writeVerifyCooldownDone | .directReadByte
  | .readNextBit | .checkNextBitOne | .cooldownNextBitOne | .checkFinalByte | .cooldownFinalVerify
  | .sendPagePreset | .sendPagesetCooldown | .sendPagedCommand | .pagedWriteDone
  | .pagedWriteCooldownDone | .pagedHardResetExit | .pgmShort => true
  | _ => false

/-- A request to the backend that enters or leaves service mode. -/
def BackendRequest.isMode (r : BackendRequest) : Bool := r = .enterServiceMode || r = .exitServiceMode

namespace ProgrammingTrackFrontend

/-- A request to leave service mode is queued. -/
def ExitQueued (s : ProgrammingTrackFrontend) : Prop :=
  ∃ r ∈ s.queue, r.cmd = .exitServiceMode

/-- What an idle frontend shows: service mode has an end, and the backend has left it otherwise. -/
def LeavesServiceMode (s : ProgrammingTrackFrontend) : Prop :=
  s.state = .idle →
    (s.inServiceMode = true → s.timer = .armed ∨ s.ExitQueued) ∧
    (s.inServiceMode = false → s.lastMode = none ∨ s.lastMode = some .exitServiceMode)

variable {params : FrontendParams} {answer : FrontendAnswer} {s t : ProgrammingTrackFrontend}

theorem lastMode_concat (r : BackendRequest) :
    ({ s with backendRequests := s.backendRequests ++ [r] } : ProgrammingTrackFrontend).lastMode =
      if r.isMode then some r else s.lastMode := by
  unfold lastMode BackendRequest.isMode
  split_ifs with hmode
  · simp [hmode]
  · simp [hmode]

/-- The last request of the two kinds is of one of them. -/
theorem lastMode_cases (s : ProgrammingTrackFrontend) :
    s.lastMode = none ∨ s.lastMode = some .enterServiceMode ∨ s.lastMode = some .exitServiceMode := by
  unfold lastMode
  cases h : (s.backendRequests.filter _).getLast? with
  | none => exact Or.inl rfl
  | some r =>
    have hmem := (List.mem_filter.mp (List.mem_of_getLast? h)).2
    simp only [Bool.or_eq_true, decide_eq_true_eq] at hmem
    rcases hmem with rfl | rfl
    · exact Or.inr (Or.inl rfl)
    · exact Or.inr (Or.inr rfl)

/-- The timer runs exactly if its flag says so. -/
def TimerFlag (s : ProgrammingTrackFrontend) : Prop := s.isRunning = true ↔ s.timer = .armed

/-- What a state of an operation does: it leaves the mode alone, and it goes on with the operation, or
ends it with an armed timer or a queued exit. -/
structure Carries (s t : ProgrammingTrackFrontend) : Prop where
  inServiceMode : t.inServiceMode = s.inServiceMode
  lastMode : t.lastMode = s.lastMode
  timer : t.TimerFlag
  ends : t.state.inOperation = true ∨ t.timer = .armed ∨ t.ExitQueued

/-- The data of an operation plays no part. -/
structure SameMode (s t : ProgrammingTrackFrontend) : Prop where
  inServiceMode : t.inServiceMode = s.inServiceMode
  backendRequests : t.backendRequests = s.backendRequests
  isRunning : t.isRunning = s.isRunning
  timer : t.timer = s.timer

theorem SameMode.lastMode (h : SameMode s t) : t.lastMode = s.lastMode := by
  rw [ProgrammingTrackFrontend.lastMode, ProgrammingTrackFrontend.lastMode, h.backendRequests]

theorem SameMode.timerFlag (h : SameMode s t) (hflag : s.TimerFlag) : t.TimerFlag := by
  rw [TimerFlag, h.isRunning, h.timer]
  exact hflag

theorem sameMode_noteAck (s : ProgrammingTrackFrontend) (answer : FrontendAnswer) :
    SameMode s (s.noteAck answer) := by
  unfold noteAck
  split_ifs <;> exact ⟨rfl, rfl, rfl, rfl⟩

theorem sameMode_confirmOne (s : ProgrammingTrackFrontend) (answer : FrontendAnswer) :
    SameMode s (s.confirmOne answer) := by
  unfold confirmOne
  split_ifs <;> exact ⟨rfl, rfl, rfl, rfl⟩

theorem carries_goto (hflag : s.TimerFlag) {next : FrontendState} (hnext : next.inOperation = true)
    (h : SameMode s t) : Carries s (t.goto next) :=
  ⟨h.inServiceMode, h.lastMode, h.timerFlag hflag, Or.inl hnext⟩

theorem carries_invoke (hflag : s.TimerFlag) {next : FrontendState} (hnext : next.inOperation = true)
    (h : SameMode s t) {r : BackendRequest} (hr : r.isMode = false) : Carries s (t.invoke next r) := by
  refine ⟨h.inServiceMode, ?_, h.timerFlag hflag, Or.inl hnext⟩
  have hlast := lastMode_concat (s := t) r
  rw [hr] at hlast
  exact hlast.trans h.lastMode

theorem carries_doneAndReturn (hflag : s.TimerFlag) (h : SameMode s t) {code : ResultCode}
    {u : ProgrammingTrackFrontend} (hdone : t.doneAndReturn code = some u) : Carries s u := by
  obtain ⟨v, hping, rfl⟩ := Option.map_eq_some_iff.mp hdone
  unfold ping at hping
  split_ifs at hping with hrunning
  · cases hping
    exact ⟨h.inServiceMode, h.lastMode, h.timerFlag hflag,
      Or.inr (Or.inl ((h.timerFlag hflag).mp hrunning))⟩
  · cases hping
    exact ⟨h.inServiceMode, h.lastMode, Iff.intro (fun _ => rfl) fun _ => rfl,
      Or.inr (Or.inl rfl)⟩

theorem carries_pgmShort (hflag : s.TimerFlag) : Carries s s.pgmShort :=
  ⟨rfl, rfl, hflag, Or.inr (Or.inr ⟨exitRequest, by simp [pgmShort, returnWith], rfl⟩)⟩

theorem sameMode_refl (s : ProgrammingTrackFrontend) : SameMode s s := ⟨rfl, rfl, rfl, rfl⟩

/-- Every state of an operation of service mode carries it on or ends it well. -/
theorem carries_runState (hflag : s.TimerFlag) (hop : s.state.inOperation = true)
    (hrun : s.runState params answer = some t) : Carries s t := by
  have hshort : Carries s (s.goto .pgmShort) := carries_goto hflag rfl (sameMode_refl s)
  unfold runState at hrun
  cases hstate : s.state <;> simp only [hstate] at hrun
  case sendInitialResets =>
    cases hrun
    unfold sendInitialResets
    split_ifs
    · exact hshort
    · exact carries_invoke hflag rfl (sameMode_refl s) rfl
  case enterServiceModeDone =>
    cases hrun
    unfold enterServiceModeDone
    split_ifs
    · exact hshort
    · exact carries_goto hflag rfl (sameMode_refl s)
  case actServiceMode =>
    unfold actServiceMode at hrun
    split at hrun
    · cases hrun
      exact carries_goto hflag rfl (sameMode_refl s)
    · cases hrun
      exact carries_goto hflag rfl (sameMode_refl s)
    · cases hrun
      exact carries_goto hflag rfl (sameMode_refl s)
    · split at hrun
      · exact carries_doneAndReturn hflag (sameMode_refl s) hrun
      · cases hrun
        refine carries_invoke hflag rfl ?_ rfl
        exact ⟨rfl, rfl, rfl, rfl⟩
  case writePktSent =>
    cases hrun
    unfold writePktSent
    split_ifs
    · exact hshort
    · exact carries_invoke hflag rfl (sameMode_noteAck s answer) rfl
  case writeCooldownDone =>
    unfold writeCooldownDone at hrun
    split_ifs at hrun
    · cases hrun
      exact hshort
    · have hsame := sameMode_noteAck s answer
      simp only at hrun
      split at hrun
      · refine carries_doneAndReturn hflag ?_ hrun
        exact ⟨hsame.inServiceMode, hsame.backendRequests, hsame.isRunning, hsame.timer⟩
      · cases hrun
        refine carries_invoke hflag rfl ?_ rfl
        exact ⟨hsame.inServiceMode, hsame.backendRequests, hsame.isRunning, hsame.timer⟩
  case writeVerifyCooldown =>
    cases hrun
    unfold writeVerifyCooldown
    split_ifs
    · exact hshort
    · exact carries_invoke hflag rfl (sameMode_noteAck s answer) rfl
  case writeVerifyCooldownDone =>
    unfold writeVerifyCooldownDone at hrun
    split_ifs at hrun
    · cases hrun
      exact hshort
    · exact carries_doneAndReturn hflag (sameMode_noteAck s answer) hrun
  case directReadByte =>
    cases hrun
    exact carries_goto hflag rfl ⟨rfl, rfl, rfl, rfl⟩
  case readNextBit =>
    cases hrun
    exact carries_invoke hflag rfl (sameMode_refl s) rfl
  case checkNextBitOne =>
    cases hrun
    unfold checkNextBitOne
    split_ifs
    · exact hshort
    · exact carries_invoke hflag rfl (sameMode_confirmOne s answer) rfl
  case cooldownNextBitOne =>
    cases hrun
    unfold cooldownNextBitOne
    have hsame := sameMode_confirmOne s answer
    simp only
    split_ifs
    · exact hshort
    · refine carries_invoke hflag rfl ?_ rfl
      exact ⟨hsame.inServiceMode, hsame.backendRequests, hsame.isRunning, hsame.timer⟩
    · refine carries_goto hflag rfl ?_
      exact ⟨hsame.inServiceMode, hsame.backendRequests, hsame.isRunning, hsame.timer⟩
  case checkFinalByte =>
    unfold checkFinalByte at hrun
    split_ifs at hrun
    · cases hrun
      exact hshort
    · exact carries_doneAndReturn hflag (sameMode_refl s) hrun
    · cases hrun
      exact carries_invoke hflag rfl (sameMode_refl s) rfl
  case cooldownFinalVerify =>
    unfold cooldownFinalVerify at hrun
    by_cases hpgm : answer.hasShortCircuit = true
    · rw [if_pos hpgm] at hrun
      cases hrun
      exact hshort
    · rw [if_neg hpgm] at hrun
      exact carries_doneAndReturn hflag (sameMode_refl s) hrun
  case sendPagePreset =>
    cases hrun
    refine carries_invoke hflag rfl ?_ rfl
    exact ⟨rfl, rfl, rfl, rfl⟩
  case sendPagesetCooldown =>
    cases hrun
    unfold sendPagesetCooldown
    split_ifs
    · exact hshort
    · exact carries_invoke hflag rfl (sameMode_refl s) rfl
  case sendPagedCommand =>
    unfold sendPagedCommand at hrun
    split_ifs at hrun
    · cases hrun
      exact hshort
    · split at hrun
      · cases hrun
        exact carries_invoke hflag rfl (sameMode_refl s) rfl
      · cases hrun
        exact carries_invoke hflag rfl (sameMode_refl s) rfl
      · exact carries_doneAndReturn hflag (sameMode_refl s) hrun
  case pagedWriteDone =>
    cases hrun
    unfold pagedWriteDone
    split_ifs <;> first
      | exact hshort
      | exact carries_invoke hflag rfl (sameMode_noteAck s answer) rfl
  case pagedWriteCooldownDone =>
    cases hrun
    unfold pagedWriteCooldownDone
    have hsame := sameMode_noteAck s answer
    simp only
    split_ifs
    · exact hshort
    all_goals
      refine carries_invoke hflag rfl ?_ rfl
      exact ⟨hsame.inServiceMode, hsame.backendRequests, hsame.isRunning, hsame.timer⟩
  case pagedHardResetExit =>
    unfold pagedHardResetExit at hrun
    split_ifs at hrun
    · cases hrun
      exact hshort
    · exact carries_doneAndReturn hflag (sameMode_noteAck s answer) hrun
  case pgmShort =>
    cases hrun
    exact carries_pgmShort hflag
  all_goals simp [hstate, FrontendState.inOperation] at hop

/-- The request to leave service mode is what the flow serves. -/
def ServesExit (s : ProgrammingTrackFrontend) : Prop :=
  (s.state = .entry ∧ s.request.cmd = .exitServiceMode) ∨ s.state = .exitServiceMode

/-- The invariant of the runs. -/
structure Bounded (params : FrontendParams) (s : ProgrammingTrackFrontend) : Prop where
  timer : s.TimerFlag
  backend : s.inServiceMode = true → params.hasBackend = true
  left : s.inServiceMode = false → s.lastMode ≠ some .enterServiceMode
  ends : s.inServiceMode = true →
    s.timer = .armed ∨ s.ExitQueued ∨ s.state.inOperation = true ∨ s.ServesExit

theorem bounded_start (params : FrontendParams) : start.Bounded params :=
  ⟨by simp [TimerFlag, start], nofun, fun _ => by decide, nofun⟩

theorem Bounded.leavesServiceMode (h : s.Bounded params) : s.LeavesServiceMode := by
  intro hidle
  refine ⟨fun hin => ?_, fun hout => ?_⟩
  · rcases h.ends hin with harmed | hqueued | hop | hserves
    · exact Or.inl harmed
    · exact Or.inr hqueued
    · rw [hidle] at hop
      cases hop
    · rcases hserves with ⟨hstate, -⟩ | hstate <;>
      · rw [hidle] at hstate
        cases hstate
  · rcases lastMode_cases s with hnone | henter | hexit
    · exact Or.inl hnone
    · exact absurd henter (h.left hout)
    · exact Or.inr hexit

/-- A step that leaves the mode, the timer and the backend alone, and goes on in a state outside the
operations, keeps the invariant. -/
theorem Bounded.of_same (h : s.Bounded params) (hop : s.state.inOperation = false)
    (hsame : SameMode s t) (hqueue : s.ExitQueued → t.ExitQueued ∨ t.ServesExit)
    (hserves : s.ServesExit → t.ExitQueued ∨ t.ServesExit) : t.Bounded params := by
  refine ⟨hsame.timerFlag h.timer, fun hin => ?_, fun hout => ?_, fun hin => ?_⟩
  · exact h.backend (hsame.inServiceMode.symm.trans hin)
  · rw [hsame.lastMode]
    exact h.left (hsame.inServiceMode.symm.trans hout)
  · rw [hsame.timer]
    have hor : t.ExitQueued ∨ t.ServesExit → t.ExitQueued ∨ t.state.inOperation = true ∨ t.ServesExit :=
      fun h => h.imp id Or.inr
    rcases h.ends (hsame.inServiceMode.symm.trans hin) with harmed | hqueued | hin' | hserves'
    · exact Or.inl harmed
    · exact Or.inr (hor (hqueue hqueued))
    · rw [hop] at hin'
      cases hin'
    · exact Or.inr (hor (hserves hserves'))

/-- A state of an operation keeps the invariant. -/
theorem Bounded.of_carries (h : s.Bounded params) (hcarries : Carries s t) : t.Bounded params := by
  refine ⟨hcarries.timer, fun hin => ?_, fun hout => ?_, fun _ => ?_⟩
  · exact h.backend (hcarries.inServiceMode.symm.trans hin)
  · rw [hcarries.lastMode]
    exact h.left (hcarries.inServiceMode.symm.trans hout)
  · rcases hcarries.ends with hop | harmed | hqueued
    · exact Or.inr (Or.inr (Or.inl hop))
    · exact Or.inl harmed
    · exact Or.inr (Or.inl hqueued)

theorem Bounded.enterServiceMode (h : s.Bounded params) (hstate : s.state = .enterServiceMode) :
    (s.enterServiceMode params).Bounded params := by
  have hserves : ¬ s.ServesExit := by
    rintro (⟨hentry, -⟩ | hexit)
    · rw [hstate] at hentry
      cases hentry
    · rw [hstate] at hexit
      cases hexit
  unfold ProgrammingTrackFrontend.enterServiceMode
  split_ifs with hin hbackend
  · exact ⟨h.timer, h.backend, h.left, fun _ => Or.inr (Or.inr (Or.inl rfl))⟩
  · exact h.of_same (by simp [hstate, FrontendState.inOperation]) ⟨rfl, rfl, rfl, rfl⟩ Or.inl
      (fun hexit => absurd hexit hserves)
  · exact ⟨h.timer, fun _ => by simpa using hbackend, nofun, fun _ => Or.inr (Or.inr (Or.inl rfl))⟩

/-- The state that leaves service mode, stops the timer and tells the backend. -/
theorem Bounded.exitServiceMode (h : s.Bounded params) :
    (s.exitServiceMode params).Bounded params := by
  have hstop : s.stopWait.TimerFlag ∧ s.stopWait.inServiceMode = s.inServiceMode ∧
      s.stopWait.lastMode = s.lastMode := by
    unfold stopWait
    split_ifs
    · exact ⟨by simp [TimerFlag], rfl, rfl⟩
    · exact ⟨h.timer, rfl, rfl⟩
  obtain ⟨hflag, hmode, hlast⟩ := hstop
  unfold ProgrammingTrackFrontend.exitServiceMode
  simp only
  split_ifs with hout hbackend
  · have hout' : s.inServiceMode = false := by
      rw [← hmode]
      simpa using hout
    refine ⟨hflag, fun hin => ?_, fun _ => ?_, fun hin => ?_⟩
    · exact absurd ((hmode.trans hout').symm.trans hin) (by decide)
    · have hsame : (s.stopWait.returnWith .ok).lastMode = s.lastMode := hlast
      rw [hsame]
      exact h.left hout'
    · exact absurd ((hmode.trans hout').symm.trans hin) (by decide)
  · have hin : s.inServiceMode = true := by
      rw [← hmode]
      simpa using hout
    rw [h.backend hin] at hbackend
    simp at hbackend
  · refine ⟨hflag, nofun, fun _ => ?_, nofun⟩
    have hsent := lastMode_concat (s := { s.stopWait with inServiceMode := false }) .exitServiceMode
    have heq : (({ s.stopWait with inServiceMode := false } : ProgrammingTrackFrontend).invoke
        .exitServiceModeDone .exitServiceMode).lastMode = some .exitServiceMode := hsent
    rw [heq]
    nofun

theorem Bounded.runState (h : s.Bounded params) (hrun : s.runState params answer = some t) :
    t.Bounded params := by
  by_cases hop : s.state.inOperation = true
  · exact h.of_carries (carries_runState h.timer hop hrun)
  have hnop : s.state.inOperation = false := by simpa using hop
  have hstays : ∀ {t : ProgrammingTrackFrontend}, (s.ServesExit → t.ServesExit) → SameMode s t →
      t.queue = s.queue → t.Bounded params := fun hserves hsame hqueue =>
    h.of_same hnop hsame (fun ⟨r, hr, hcmd⟩ => Or.inl ⟨r, hqueue ▸ hr, hcmd⟩)
      fun hexit => Or.inr (hserves hexit)
  have hnot : ∀ {t : ProgrammingTrackFrontend}, s.state ≠ .entry → s.state ≠ .exitServiceMode →
      s.ServesExit → t.ServesExit := by
    rintro t hentry hexit (⟨hstate, -⟩ | hstate)
    · exact absurd hstate hentry
    · exact absurd hstate hexit
  unfold ProgrammingTrackFrontend.runState at hrun
  cases hstate : s.state <;> simp only [hstate] at hrun
  case idle =>
    split at hrun <;> cases hrun
    next request rest hqueue =>
    refine h.of_same hnop ⟨rfl, rfl, rfl, rfl⟩ ?_ fun hserves =>
      Or.inr (hnot (by simp [hstate]) (by simp [hstate]) hserves)
    rintro ⟨r, hr, hcmd⟩
    rw [hqueue] at hr
    rcases List.mem_cons.mp hr with rfl | hrest
    · exact Or.inr (Or.inl ⟨rfl, hcmd⟩)
    · exact Or.inl ⟨r, hrest, hcmd⟩
  case entry =>
    cases hrun
    have hother : ∀ {t : ProgrammingTrackFrontend}, s.request.cmd ≠ .exitServiceMode →
        s.ServesExit → t.ServesExit := by
      rintro t hcmd (⟨-, hexit⟩ | hexit)
      · exact absurd hexit hcmd
      · rw [hstate] at hexit
        cases hexit
    unfold ProgrammingTrackFrontend.entry
    cases hcmd : s.request.cmd <;> simp only
    case exitServiceMode => exact hstays (fun _ => Or.inr rfl) ⟨rfl, rfl, rfl, rfl⟩ rfl
    all_goals exact hstays (hother (by simp [hcmd])) ⟨rfl, rfl, rfl, rfl⟩ rfl
  case enterServiceMode =>
    cases hrun
    exact h.enterServiceMode hstate
  case exitServiceMode =>
    cases hrun
    exact h.exitServiceMode
  case pomWriteByte | pomReadByte | exitServiceModeDone =>
    cases hrun
    exact hstays (hnot (by simp [hstate]) (by simp [hstate])) ⟨rfl, rfl, rfl, rfl⟩ rfl
  case fillPomWriteBytePacket =>
    cases hrun
    unfold ProgrammingTrackFrontend.fillPomWriteBytePacket
    split <;> exact hstays (hnot (by simp [hstate]) (by simp [hstate])) ⟨rfl, rfl, rfl, rfl⟩ rfl
  case fillPomReadBytePacket =>
    cases hrun
    unfold ProgrammingTrackFrontend.fillPomReadBytePacket
    split <;> exact hstays (hnot (by simp [hstate]) (by simp [hstate])) ⟨rfl, rfl, rfl, rfl⟩ rfl
  case writeReturned =>
    cases hrun
    unfold ProgrammingTrackFrontend.writeReturned
    simp only
    split
    · split_ifs <;>
        exact hstays (hnot (by simp [hstate]) (by simp [hstate])) ⟨rfl, rfl, rfl, rfl⟩ rfl
    · exact hstays (hnot (by simp [hstate]) (by simp [hstate])) ⟨rfl, rfl, rfl, rfl⟩ rfl
    · exact hstays (hnot (by simp [hstate]) (by simp [hstate])) ⟨rfl, rfl, rfl, rfl⟩ rfl
  case readReturned =>
    cases hrun
    unfold ProgrammingTrackFrontend.readReturned
    simp only
    split_ifs <;> exact hstays (hnot (by simp [hstate]) (by simp [hstate])) ⟨rfl, rfl, rfl, rfl⟩ rfl
  all_goals simp [hstate, FrontendState.inOperation] at hnop

/-- The expiry of the timer queues the exit, unless `stop_wait` caused it. -/
theorem Bounded.timeout (h : s.Bounded params) : s.timeout.Bounded params := by
  unfold ProgrammingTrackFrontend.timeout
  simp only
  split_ifs with htriggered
  · refine ⟨by simp [TimerFlag], h.backend, h.left, fun hin => ?_⟩
    rcases h.ends hin with harmed | hends
    · rw [htriggered] at harmed
      cases harmed
    · exact Or.inr hends
  · exact ⟨by simp [TimerFlag], h.backend, h.left,
      fun _ => Or.inr (Or.inl ⟨exitRequest, by simp, rfl⟩)⟩

theorem Bounded.step (h : s.Bounded params) {input : FrontendInput}
    (hstep : s.step params input = some t) : t.Bounded params := by
  cases input with
  | arrive request =>
    cases hstep
    refine ⟨h.timer, h.backend, h.left, fun hin => ?_⟩
    rcases h.ends hin with harmed | ⟨r, hr, hcmd⟩ | hop | hserves
    · exact Or.inl harmed
    · exact Or.inr (Or.inl ⟨r, List.mem_append_left _ hr, hcmd⟩)
    · exact Or.inr (Or.inr (Or.inl hop))
    · exact Or.inr (Or.inr (Or.inr hserves))
  | timerExpired =>
    simp only [ProgrammingTrackFrontend.step, Option.ite_none_left_eq_some, Option.some.injEq] at hstep
    obtain ⟨-, rfl⟩ := hstep
    exact h.timeout
  | flow answer => exact h.runState hstep

/-- Whenever the flow is idle in service mode, the timer is armed or the request that leaves service
mode is queued; and whenever it is idle outside service mode, the backend was last told to leave it. -/
theorem serviceMode_left (params : FrontendParams) (history : List FrontendInput) :
    Trace.Always (step params) (fun _ s => s.LeavesServiceMode) start history := by
  intro past future s _ hrun
  have hbounded : s.Bounded params :=
    Trace.invariant_of_step (I := fun _ (s : ProgrammingTrackFrontend) => s.Bounded params)
      (bounded_start params) (fun _ _ _ _ h hstep => h.step hstep) hrun
  exact hbounded.leavesServiceMode

end ProgrammingTrackFrontend

end OpenmrnCue.CommandStation
