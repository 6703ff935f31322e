import OpenmrnCue.CommandStation.DecoderExchanges

/-! The stages of a request for the programming track.  A short circuit in any of them is the
result; otherwise the flow goes through all stages, and its result is made of their
acknowledgements. -/

namespace OpenmrnCue.CommandStation

/-- The states of a request for the programming track. -/
def FrontendState.serves : FrontendState → Bool
  | .enterServiceMode | .sendInitialResets | .enterServiceModeDone | .actServiceMode
  | .writePktSent | .writeCooldownDone | .writeVerifyCooldown | .writeVerifyCooldownDone
  | .directReadByte | .readNextBit | .checkNextBitOne | .cooldownNextBitOne | .checkFinalByte
  | .cooldownFinalVerify | .sendPagePreset | .sendPagesetCooldown | .sendPagedCommand
  | .pagedWriteDone | .pagedWriteCooldownDone | .pagedHardResetExit => true
  | _ => false

namespace ProgrammingTrackFrontend

open Exchange

variable {params : FrontendParams} {s t c c' : ProgrammingTrackFrontend}
variable {answer : FrontendAnswer} {exchanges : List Exchange}

/-! ### Short circuits -/

/-- What a state can do that has no short circuit to report: it goes on, or it ends the request. -/
inductive Advances (c c' : ProgrammingTrackFrontend) : Prop
  | goesOn (hserves : c'.state.serves = true) (hresults : c'.results = c.results)
  | ends (code : ResultCode) (hidle : c'.state = .idle) (hcode : code ≠ .pgmShort)
      (hresults : c'.results = c.results ++ [code])

theorem advances_done {code : ResultCode} (hdone : s.doneAndReturn code = some c')
    (hresults : s.results = c.results) (hcode : code ≠ .pgmShort) : Advances c c' := by
  obtain ⟨u, hping, rfl⟩ := Option.map_eq_some_iff.mp hdone
  refine .ends code rfl hcode ?_
  have hcore : u.core.results = s.core.results := congrArg results (core_ping hping)
  exact congrArg (· ++ [code]) (hcore.trans hresults)

/-- A state that is told of a short circuit goes to `pgm_short`; any other one advances. -/
theorem serves_runState (hbackend : params.hasBackend = true)
    (hserves : c.state.serves = true) (hrun : c.runState params answer = some c') :
    (c.state.consumes = true ∧ answer.hasShortCircuit = true ∧ c' = c.goto .pgmShort) ∨
    ((c.state.consumes = true → answer.hasShortCircuit = false) ∧ Advances c c') := by
  cases hstate : c.state <;> rw [hstate] at hserves <;> simp only [runState, hstate] at hrun
  case sendInitialResets | enterServiceModeDone | sendPagesetCooldown | writePktSent |
      writeVerifyCooldown | pagedWriteDone | pagedWriteCooldownDone | checkNextBitOne |
      cooldownNextBitOne =>
    cases hrun
    simp only [sendInitialResets, enterServiceModeDone, writePktSent, writeVerifyCooldown,
      sendPagesetCooldown, pagedWriteDone, pagedWriteCooldownDone, checkNextBitOne,
      cooldownNextBitOne, noteAck_eq, confirmOne_eq]
    by_cases hshort : answer.hasShortCircuit = true
    · rw [if_pos hshort]
      exact .inl ⟨rfl, hshort, rfl⟩
    · rw [if_neg hshort]
      refine .inr ⟨fun _ => Bool.eq_false_iff.mpr hshort, ?_⟩
      try split
      all_goals exact .goesOn rfl rfl
  case actServiceMode =>
    refine .inr ⟨by simp [FrontendState.consumes], ?_⟩
    unfold actServiceMode at hrun
    split at hrun
    case h_4 =>
      split at hrun
      · exact advances_done hrun rfl (by simp)
      · cases hrun
        exact .goesOn rfl rfl
    all_goals
      cases hrun
      exact .goesOn rfl rfl
  case enterServiceMode =>
    cases hrun
    refine .inr ⟨by simp [FrontendState.consumes], ?_⟩
    simp only [enterServiceMode, hbackend]
    split
    · exact .goesOn rfl rfl
    · exact .goesOn rfl rfl
  case directReadByte | readNextBit | sendPagePreset =>
    cases hrun
    exact .inr ⟨by simp [FrontendState.consumes], .goesOn rfl rfl⟩
  case writeVerifyCooldownDone | cooldownFinalVerify | pagedHardResetExit =>
    simp only [writeVerifyCooldownDone, cooldownFinalVerify, pagedHardResetExit, noteAck_eq] at hrun
    by_cases hshort : answer.hasShortCircuit = true
    · rw [if_pos hshort] at hrun
      exact .inl ⟨rfl, hshort, (Option.some.inj hrun).symm⟩
    · rw [if_neg hshort] at hrun
      refine .inr ⟨fun _ => Bool.eq_false_iff.mpr hshort, advances_done hrun rfl ?_⟩
      split_ifs <;> simp
  case writeCooldownDone =>
    simp only [writeCooldownDone, noteAck_eq] at hrun
    by_cases hshort : answer.hasShortCircuit = true
    · rw [if_pos hshort] at hrun
      exact .inl ⟨rfl, hshort, (Option.some.inj hrun).symm⟩
    rw [if_neg hshort] at hrun
    refine .inr ⟨fun _ => Bool.eq_false_iff.mpr hshort, ?_⟩
    split at hrun
    · exact advances_done hrun rfl (by simp)
    · cases hrun
      exact .goesOn rfl rfl
  case checkFinalByte =>
    unfold checkFinalByte at hrun
    by_cases hshort : answer.hasShortCircuit = true
    · rw [if_pos hshort] at hrun
      exact .inl ⟨rfl, hshort, (Option.some.inj hrun).symm⟩
    rw [if_neg hshort] at hrun
    refine .inr ⟨fun _ => Bool.eq_false_iff.mpr hshort, ?_⟩
    split at hrun
    · exact advances_done hrun rfl (by simp)
    · cases hrun
      exact .goesOn rfl rfl
  case sendPagedCommand =>
    unfold sendPagedCommand at hrun
    by_cases hshort : answer.hasShortCircuit = true
    · rw [if_pos hshort] at hrun
      exact .inl ⟨rfl, hshort, (Option.some.inj hrun).symm⟩
    rw [if_neg hshort] at hrun
    refine .inr ⟨fun _ => Bool.eq_false_iff.mpr hshort, ?_⟩
    split at hrun
    case h_3 => exact advances_done hrun rfl (by simp)
    all_goals
      cases hrun
      exact .goesOn rfl rfl
  all_goals cases hserves

/-- The outcome of a state of service mode. -/
theorem serves_next (answer : FrontendAnswer) (hbackend : params.hasBackend = true)
    (hserves : c.state.serves = true) (htimer : c.timer = .stopped) :
    (c.state.consumes = true ∧ answer.hasShortCircuit = true ∧
      next params c answer = (c.goto .pgmShort).core) ∨
    ((c.state.consumes = true → answer.hasShortCircuit = false) ∧
      Advances c (next params c answer)) := by
  have hidle : c.state ≠ .idle := by
    intro hidle
    rw [hidle] at hserves
    cases hserves
  obtain ⟨c', hrun⟩ := exists_runState params hidle htimer answer
  rw [next_of_runState hrun]
  rcases serves_runState hbackend hserves hrun with ⟨hconsumes, hshort, rfl⟩ | ⟨hclear, hadvances⟩
  · exact .inl ⟨hconsumes, hshort, rfl⟩
  · refine .inr ⟨hclear, ?_⟩
    cases hadvances with
    | goesOn hserves hresults => exact .goesOn hserves hresults
    | ends code hidle hcode hresults => exact .ends code hidle hcode hresults

theorem pgmShort_plays (hstate : c.state = .pgmShort) (hplays : Plays params c exchanges t) :
    exchanges = [] ∧ t.results = c.results ++ [.pgmShort] := by
  obtain ⟨answer, hrest⟩ := (plays_internal_iff (by simp [hstate]) (by simp [hstate,
    FrontendState.consumes])).mp hplays
  have hnext : next params c answer = c.pgmShort.core := by
    refine next_of_runState ?_
    rw [runState, hstate]
  rw [hnext] at hrest
  obtain ⟨rfl, rfl⟩ := (plays_idle_iff rfl).mp hrest
  exact ⟨rfl, rfl⟩

theorem next_timer (params : FrontendParams) (c : ProgrammingTrackFrontend)
    (answer : FrontendAnswer) : (next params c answer).timer = .stopped := rfl

/-- The frontend reports a short circuit exactly when an answer did. -/
theorem serves_shorted (hbackend : params.hasBackend = true)
    (hplays : Plays params c exchanges t) (htimer : c.timer = .stopped)
    (hserves : c.state.serves = true) :
    ∃ code, t.results = c.results ++ [code] ∧ (code = .pgmShort ↔ Shorted exchanges) := by
  induction hplays with
  | done h =>
    rw [h] at hserves
    cases hserves
  | @internal c t exchanges answer h hconsumes hrest ih =>
    rcases serves_next answer hbackend hserves htimer with
      ⟨hanswer, -, -⟩ | ⟨-, hadvances⟩
    · rw [hconsumes] at hanswer
      cases hanswer
    cases hadvances with
    | goesOn hserves hresults =>
      rw [← hresults]
      exact ih rfl hserves
    | ends code hidle hcode hresults =>
      obtain ⟨rfl, rfl⟩ := (plays_idle_iff hidle).mp hrest
      exact ⟨code, hresults, by simp [hcode, Shorted]⟩
  | @answer c t exchanges answer hconsumes hrest ih =>
    rcases serves_next answer hbackend hserves htimer with
      ⟨-, hshort, hnext⟩ | ⟨hclear, hadvances⟩
    · rw [hnext] at hrest
      obtain ⟨rfl, hresults⟩ := pgmShort_plays rfl hrest
      exact ⟨.pgmShort, hresults, by simp [Shorted, exchange, hshort]⟩
    cases hadvances with
    | goesOn hserves hresults =>
      obtain ⟨code, ht, hcode⟩ := ih rfl hserves
      refine ⟨code, hresults ▸ ht, hcode.trans ?_⟩
      simp [Shorted, exchange, hclear hconsumes]
    | ends code hidle hcode hresults =>
      obtain ⟨rfl, rfl⟩ := (plays_idle_iff hidle).mp hrest
      exact ⟨code, hresults, by simp [hcode, Shorted, exchange, hclear hconsumes]⟩

/-! ### The stages of a request -/

/-- An answer without a short circuit. -/
theorem answer_of_clear (hconsumes : c.state.consumes = true)
    (hplays : Plays params c exchanges t) (hclear : ¬Shorted exchanges) :
    ∃ answer rest, exchanges = c.exchange answer :: rest ∧ ¬answer.hasShortCircuit = true ∧
      ¬Shorted rest ∧ Plays params (next params c answer) rest t := by
  obtain ⟨answer, rest, rfl, hrest⟩ := (plays_answer_iff hconsumes).mp hplays
  refine ⟨answer, rest, rfl, fun hshort => hclear ⟨_, List.mem_cons_self, hshort⟩, ?_, hrest⟩
  rintro ⟨e, hmem, hshort⟩
  exact hclear ⟨e, List.mem_cons_of_mem _ hmem, hshort⟩

/-- A state that goes on with what it is told. -/
theorem answer_to {after : FrontendAnswer → ProgrammingTrackFrontend}
    (hconsumes : c.state.consumes = true)
    (hrun : ∀ answer, ¬answer.hasShortCircuit = true →
      c.runState params answer = some (after answer))
    (hplays : Plays params c exchanges t) (hclear : ¬Shorted exchanges) :
    ∃ answer rest, exchanges = c.exchange answer :: rest ∧ ¬Shorted rest ∧
      Plays params (after answer).core rest t := by
  obtain ⟨answer, rest, rfl, hshort, hclear', hrest⟩ := answer_of_clear hconsumes hplays hclear
  rw [next_of_runState (hrun answer hshort)] at hrest
  exact ⟨answer, rest, rfl, hclear', hrest⟩

/-- A state that ends the request with what it is told. -/
theorem answer_done {after : FrontendAnswer → ProgrammingTrackFrontend}
    {code : FrontendAnswer → ResultCode} (hconsumes : c.state.consumes = true)
    (hrun : ∀ answer, ¬answer.hasShortCircuit = true →
      c.runState params answer = (after answer).doneAndReturn (code answer))
    (htimer : ∀ answer, (after answer).timer = .stopped)
    (hplays : Plays params c exchanges t) (hclear : ¬Shorted exchanges) :
    ∃ answer, exchanges = [c.exchange answer] ∧
      t = ((after answer).returnWith (code answer)).core := by
  obtain ⟨answer, rest, rfl, hshort, -, hrest⟩ := answer_of_clear hconsumes hplays hclear
  rw [next_done (htimer answer) (hrun answer hshort)] at hrest
  obtain ⟨rfl, rfl⟩ := (plays_idle_iff rfl).mp hrest
  exact ⟨answer, rfl, rfl⟩

theorem exchange_invoke (next : FrontendState) (r : BackendRequest) :
    (s.invoke next r).core.exchange answer = ⟨some r, answer⟩ := by
  simp [exchange, invoke, core]

/-- The result of a write. -/
def verdict (written verified : Bool) : ResultCode :=
  if verified then .ok else if written then .failedVerify else .noLoco

theorem writeVerifyCooldownDone_plays (hstate : c.state = .writeVerifyCooldownDone)
    (htimer : c.timer = .stopped) (hplays : Plays params c exchanges t)
    (hclear : ¬Shorted exchanges) :
    ∃ a, exchanges = [c.exchange a] ∧ t.request = c.request ∧
      t.results = c.results ++ [verdict c.hasWriteAck (c.foundAck || a.hasAck)] := by
  have hrun : ∀ a : FrontendAnswer, ¬a.hasShortCircuit = true → c.runState params a =
      { c with foundAck := c.foundAck || a.hasAck }.doneAndReturn
        (verdict c.hasWriteAck (c.foundAck || a.hasAck)) := by
    intro a hshort
    simp only [runState, hstate, writeVerifyCooldownDone, if_neg hshort, noteAck_eq]
    rfl
  obtain ⟨a, rfl, rfl⟩ :=
    answer_done (by rw [hstate]; rfl) hrun (fun _ => htimer) hplays hclear
  exact ⟨a, rfl, rfl, rfl⟩

theorem writeVerifyCooldown_plays (hstate : c.state = .writeVerifyCooldown)
    (hplays : Plays params c exchanges t) (hclear : ¬Shorted exchanges) :
    ∃ a₁ a₂, exchanges =
        [c.exchange a₁, ⟨some (.sendReset params.verifyCooldownReset), a₂⟩] ∧
      t.request = c.request ∧
      t.results = c.results ++ [verdict c.hasWriteAck (c.foundAck || a₁.hasAck || a₂.hasAck)] := by
  have hrun : ∀ a : FrontendAnswer, ¬a.hasShortCircuit = true → c.runState params a =
      some ({ c with foundAck := c.foundAck || a.hasAck }.invoke .writeVerifyCooldownDone
        (.sendReset params.verifyCooldownReset)) := by
    intro a hshort
    simp only [runState, hstate, writeVerifyCooldown, if_neg hshort, noteAck_eq]
  obtain ⟨a₁, rest, rfl, hclear, hrest⟩ := answer_to (by rw [hstate]; rfl) hrun hplays hclear
  obtain ⟨a₂, rfl, hrequest, hresults⟩ := writeVerifyCooldownDone_plays rfl rfl hrest hclear
  exact ⟨a₁, a₂, by rw [exchange_invoke], hrequest, hresults⟩

theorem writeCooldownDone_plays {verify : ServicePacket} (hstate : c.state = .writeCooldownDone)
    (hplays : Plays params c exchanges t) (hclear : ¬Shorted exchanges)
    (hverify : directVerifyPacket c.request = some verify) :
    ∃ a₁ a₂ a₃, exchanges =
        [c.exchange a₁, ⟨some (.sendProgrammingPacket verify params.verifyRepeats false), a₂⟩,
          ⟨some (.sendReset params.verifyCooldownReset), a₃⟩] ∧
      t.request = c.request ∧
      t.results = c.results ++ [verdict (c.foundAck || a₁.hasAck) (a₂.hasAck || a₃.hasAck)] := by
  have hrun : ∀ a : FrontendAnswer, ¬a.hasShortCircuit = true → c.runState params a =
      some ({ c with foundAck := false, hasWriteAck := c.foundAck || a.hasAck }.invoke
        .writeVerifyCooldown (.sendProgrammingPacket verify params.verifyRepeats false)) := by
    intro a hshort
    simp only [runState, hstate, writeCooldownDone, if_neg hshort, noteAck_eq, hverify]
  obtain ⟨a₁, rest, rfl, hclear, hrest⟩ := answer_to (by rw [hstate]; rfl) hrun hplays hclear
  obtain ⟨a₂, a₃, rfl, hrequest, hresults⟩ := writeVerifyCooldown_plays rfl hrest hclear
  exact ⟨a₁, a₂, a₃, by rw [exchange_invoke], hrequest, hresults⟩

theorem writePktSent_to (hstate : c.state = .writePktSent)
    (hplays : Plays params c exchanges t) (hclear : ¬Shorted exchanges) :
    ∃ a rest, exchanges = c.exchange a :: rest ∧ ¬Shorted rest ∧
      Plays params ({ c with foundAck := c.foundAck || a.hasAck }.invoke .writeCooldownDone
        (.sendReset 15)).core rest t := by
  refine answer_to (by rw [hstate]; rfl) (fun a hshort => ?_) hplays hclear
  simp only [runState, hstate, writePktSent, if_neg hshort, noteAck_eq]

/-- A write in direct mode: the packet that writes and the one that verifies, each with resets. -/
theorem directWrite_plays {write verify : ServicePacket} (hstate : c.state = .actServiceMode)
    (hwrite : directWritePacket c.request = some write)
    (hverify : directVerifyPacket c.request = some verify)
    (hplays : Plays params c exchanges t) (hclear : ¬Shorted exchanges) :
    ∃ a₁ a₂ a₃ a₄, exchanges =
        [⟨some (.sendProgrammingPacket write 5 false), a₁⟩, ⟨some (.sendReset 15), a₂⟩,
          ⟨some (.sendProgrammingPacket verify params.verifyRepeats false), a₃⟩,
          ⟨some (.sendReset params.verifyCooldownReset), a₄⟩] ∧
      t.request = c.request ∧
      t.results = c.results ++ [verdict (a₁.hasAck || a₂.hasAck) (a₃.hasAck || a₄.hasAck)] := by
  have hact : c.actServiceMode =
      some ({ c with foundAck := false, hasWriteAck := false }.invoke .writePktSent
        (.sendProgrammingPacket write 5 false)) := by
    unfold actServiceMode
    unfold directWritePacket at hwrite
    split at hwrite <;> simp_all [directWritePacket]
  have h₁ := internal_to (by simp [hstate]) (by simp [hstate, FrontendState.consumes])
    (fun answer => by rw [runState, hstate, hact]) hplays
  obtain ⟨a₁, rest, rfl, hclear, h₂⟩ := writePktSent_to rfl h₁ hclear
  obtain ⟨a₂, a₃, a₄, rfl, hrequest, hresults⟩ := writeCooldownDone_plays rfl h₂ hclear hverify
  exact ⟨a₁, a₂, a₃, a₄, by rw [exchange_invoke, exchange_invoke], hrequest, hresults⟩

theorem pagedWriteCooldownDone_plays (hstate : c.state = .pagedWriteCooldownDone)
    (hplays : Plays params c exchanges t) (hclear : ¬Shorted exchanges)
    (hreset : ¬(c.request.cvOffset = 7 ∧ c.request.value = 8)) :
    ∃ a₁ a₂, exchanges =
        [c.exchange a₁, ⟨some (.sendProgrammingPacket
          (.pagedVerifyReg c.pagedRegister c.request.value) 11 true), a₂⟩] ∧
      t.request = c.request ∧
      t.results = c.results ++ [verdict (c.foundAck || a₁.hasAck) a₂.hasAck] := by
  have hrun : ∀ a : FrontendAnswer, ¬a.hasShortCircuit = true → c.runState params a =
      some ({ c with hasWriteAck := c.foundAck || a.hasAck, foundAck := false }.invoke
        .writeVerifyCooldownDone (.sendProgrammingPacket
          (.pagedVerifyReg c.pagedRegister c.request.value) 11 true)) := by
    intro a hshort
    simp only [runState, hstate, pagedWriteCooldownDone, if_neg hshort, noteAck_eq, if_neg hreset]
  obtain ⟨a₁, rest, rfl, hclear, hrest⟩ := answer_to (by rw [hstate]; rfl) hrun hplays hclear
  obtain ⟨a₂, rfl, hrequest, hresults⟩ := writeVerifyCooldownDone_plays rfl rfl hrest hclear
  exact ⟨a₁, a₂, by rw [exchange_invoke], hrequest, hresults⟩

theorem pagedWriteDone_to (hstate : c.state = .pagedWriteDone)
    (hplays : Plays params c exchanges t) (hclear : ¬Shorted exchanges) :
    ∃ a rest, exchanges = c.exchange a :: rest ∧ ¬Shorted rest ∧
      Plays params ({ c with foundAck := c.foundAck || a.hasAck }.invoke .pagedWriteCooldownDone
        (.sendReset (if c.request.cvOffset = 0 then 10 else 5))).core rest t := by
  refine answer_to (by rw [hstate]; rfl) (fun a hshort => ?_) hplays hclear
  simp only [runState, hstate, pagedWriteDone, if_neg hshort, noteAck_eq]

theorem sendPagedCommand_to (hstate : c.state = .sendPagedCommand)
    (hplays : Plays params c exchanges t) (hclear : ¬Shorted exchanges)
    (hcmd : c.request.cmd = .pagedWriteByte) :
    ∃ a rest, exchanges = c.exchange a :: rest ∧ ¬Shorted rest ∧
      Plays params (c.invoke .pagedWriteDone (.sendProgrammingPacket
        (.pagedWriteReg c.pagedRegister c.request.value) 5 true)).core rest t := by
  refine answer_to (by rw [hstate]; rfl) (fun a hshort => ?_) hplays hclear
  simp only [runState, hstate, sendPagedCommand, if_neg hshort, hcmd]

/-- A write in paged mode: the page, the packet that writes with resets, and the one that
verifies. -/
theorem pagedWrite_plays (hstate : c.state = .actServiceMode)
    (hcmd : c.request.cmd = .pagedWriteByte)
    (hreset : ¬(c.request.cvOffset = 7 ∧ c.request.value = 8))
    (hplays : Plays params c exchanges t) (hclear : ¬Shorted exchanges) :
    ∃ a₁ a₂ a₃ a₄ resets, exchanges =
        [⟨some (.sendProgrammingPacket (.pagedSetPage (pageOf c.request.cvOffset).1) 5 true), a₁⟩,
          ⟨some (.sendProgrammingPacket
            (.pagedWriteReg (pageOf c.request.cvOffset).2 c.request.value) 5 true), a₂⟩,
          ⟨some (.sendReset resets), a₃⟩,
          ⟨some (.sendProgrammingPacket
            (.pagedVerifyReg (pageOf c.request.cvOffset).2 c.request.value) 11 true), a₄⟩] ∧
      t.request = c.request ∧
      t.results = c.results ++ [verdict (a₂.hasAck || a₃.hasAck) a₄.hasAck] := by
  have hact : c.actServiceMode = some (c.goto .sendPagePreset) := by
    unfold actServiceMode
    rw [hcmd]
  have h₁ := internal_to (by simp [hstate]) (by simp [hstate, FrontendState.consumes])
    (fun answer => by rw [runState, hstate, hact]) hplays
  have h₂ := internal_to (by simp [goto]) (by simp [goto, FrontendState.consumes])
    (fun answer => rfl) h₁
  obtain ⟨a₁, rest, rfl, hclear, h₃⟩ := sendPagedCommand_to rfl h₂ hclear hcmd
  obtain ⟨a₂, rest, rfl, hclear, h₄⟩ := pagedWriteDone_to rfl h₃ hclear
  obtain ⟨a₃, a₄, rfl, hrequest, hresults⟩ := pagedWriteCooldownDone_plays rfl h₄ hclear hreset
  refine ⟨a₁, a₂, a₃, a₄, if c.request.cvOffset = 0 then 10 else 5, ?_, hrequest, hresults⟩
  rw [exchange_invoke, exchange_invoke, sendPagePreset, exchange_invoke]
  rfl

theorem cooldownFinalVerify_plays (hstate : c.state = .cooldownFinalVerify)
    (htimer : c.timer = .stopped) (hplays : Plays params c exchanges t)
    (hclear : ¬Shorted exchanges) :
    ∃ a, exchanges = [c.exchange a] ∧ t.request = c.request ∧
      t.results = c.results ++ [if a.hasAck then .ok else .failedVerify] := by
  have hrun : ∀ a : FrontendAnswer, ¬a.hasShortCircuit = true → c.runState params a =
      c.doneAndReturn (if a.hasAck then .ok else .failedVerify) := by
    intro a hshort
    simp only [runState, hstate, cooldownFinalVerify, if_neg hshort]
  obtain ⟨a, rfl, rfl⟩ :=
    answer_done (by rw [hstate]; rfl) hrun (fun _ => htimer) hplays hclear
  exact ⟨a, rfl, rfl, rfl⟩

/-- The final check of a read: its packet, and resets when that was not acknowledged. -/
theorem checkFinalByte_plays (hstate : c.state = .checkFinalByte) (htimer : c.timer = .stopped)
    (hplays : Plays params c exchanges t) (hclear : ¬Shorted exchanges) :
    ∃ a rest, exchanges = c.exchange a :: rest ∧ (∀ e ∈ rest, e.packet = none) ∧
      t.request = c.request ∧ t.results = c.results ++
        [if a.hasAck || ackedInResets rest then .ok else .failedVerify] := by
  obtain ⟨a, rest, rfl, hshort, hclear, hrest⟩ :=
    answer_of_clear (by rw [hstate]; rfl) hplays hclear
  cases hack : a.hasAck with
  | true =>
    have hnext : next params c a = (c.returnWith .ok).core := by
      refine next_done htimer ?_
      simp only [runState, hstate, checkFinalByte, if_neg hshort, hack, if_true]
    rw [hnext] at hrest
    obtain ⟨rfl, rfl⟩ := (plays_idle_iff rfl).mp hrest
    exact ⟨a, [], rfl, by simp, rfl, by simp [hack, core, returnWith]⟩
  | false =>
    have hnext : next params c a =
        (c.invoke .cooldownFinalVerify (.sendReset params.verifyCooldownReset)).core := by
      refine next_of_runState ?_
      simp [runState, hstate, checkFinalByte, hshort, hack]
    rw [hnext] at hrest
    obtain ⟨b, rfl, hrequest, hresults⟩ := cooldownFinalVerify_plays rfl rfl hrest hclear
    refine ⟨a, _, rfl, ?_, hrequest, ?_⟩
    · rw [exchange_invoke]
      simp [packet]
    · rw [exchange_invoke, hresults, hack]
      rfl

/-! ### Reading the bits of a byte -/

/-- What is left of a read, when the flow has asked for the bits below `bit`. -/
structure ReadsFrom (bit : Nat) (c t : ProgrammingTrackFrontend) (exchanges : List Exchange) :
    Prop where
  value (i : Nat) : t.request.value.testBit i = (c.confirmedOnes.testBit i ||
    (decide (bit ≤ i ∧ i ≤ 7) && acked (.verifyBit c.request.cvOffset i true) exchanges))
  results : t.results = c.results ++ [if acked (.verifyByte c.request.cvOffset t.request.value)
    exchanges then .ok else .failedVerify]
  asksBit (i : Nat) (hbit : bit ≤ i) (hbyte : i ≤ 7) :
    ∃ e ∈ exchanges, e.packet = some (.verifyBit c.request.cvOffset i true)
  asksByte : ∃ e ∈ exchanges, e.packet = some (.verifyByte c.request.cvOffset t.request.value)
  verifies (e : Exchange) (he : e ∈ exchanges) (p : ServicePacket) (hp : e.packet = some p) :
    p.verifies = true

theorem testBit_confirm (ones bit i : Nat) (ack : Bool) :
    (if ack then ones ||| (1 <<< bit) else ones).testBit i =
      (ones.testBit i || (decide (i = bit) && ack)) := by
  cases ack
  · simp
  · simp [Nat.testBit_or, Nat.shiftLeft_eq, Nat.testBit_two_pow, eq_comm]

/-- A bit more of a read. -/
theorem ReadsFrom.cons {bit repeats resets : Nat} {a₁ a₂ : FrontendAnswer}
    (h : ReadsFrom (bit + 1) c' t exchanges) (hbit : bit ≤ 7)
    (hcv : c'.request.cvOffset = c.request.cvOffset) (hresults : c'.results = c.results)
    (hones : ∀ i, c'.confirmedOnes.testBit i =
      (c.confirmedOnes.testBit i || (decide (i = bit) && (a₁.hasAck || a₂.hasAck)))) :
    ReadsFrom bit c t
      (⟨some (.sendProgrammingPacket (.verifyBit c.request.cvOffset bit true) repeats false), a₁⟩ ::
        ⟨some (.sendReset resets), a₂⟩ :: exchanges) where
  value i := by
    rw [h.value i, hones i, hcv]
    by_cases hi : i = bit
    · subst hi
      have hlater : decide (i + 1 ≤ i ∧ i ≤ 7) = false := decide_eq_false (by omega)
      have hnow : decide (i ≤ i ∧ i ≤ 7) = true := decide_eq_true ⟨Nat.le_refl i, hbit⟩
      have hpacket : (⟨some (.sendProgrammingPacket (.verifyBit c.request.cvOffset i true) repeats
          false), a₁⟩ : Exchange).packet = some (.verifyBit c.request.cvOffset i true) := rfl
      rw [hlater, hnow, acked, if_pos hpacket]
      simp only [ackedInResets, decide_true, Bool.true_and, Bool.false_and, Bool.or_false]
    · have hpacket : (⟨some (.sendProgrammingPacket (.verifyBit c.request.cvOffset bit true) repeats
          false), a₁⟩ : Exchange).packet ≠ some (.verifyBit c.request.cvOffset i true) := by
        simp [packet, Ne.symm hi]
      have hreset : (⟨some (.sendReset resets), a₂⟩ : Exchange).packet ≠
          some (.verifyBit c.request.cvOffset i true) := by
        simp [packet]
      have hle : (bit + 1 ≤ i ∧ i ≤ 7) ↔ (bit ≤ i ∧ i ≤ 7) := by omega
      rw [acked, if_neg hpacket, acked, if_neg hreset]
      simp only [hi, hle, decide_false, Bool.false_and, Bool.or_false]
  results := by
    rw [h.results, hresults, hcv]
    simp [acked, packet]
  asksBit i hle hbyte := by
    by_cases hi : i = bit
    · subst hi
      exact ⟨_, List.mem_cons_self, rfl⟩
    · obtain ⟨e, he, hpacket⟩ := h.asksBit i (by omega) hbyte
      exact ⟨e, List.mem_cons_of_mem _ (List.mem_cons_of_mem _ he), hcv ▸ hpacket⟩
  asksByte := by
    obtain ⟨e, he, hpacket⟩ := h.asksByte
    exact ⟨e, List.mem_cons_of_mem _ (List.mem_cons_of_mem _ he), hcv ▸ hpacket⟩
  verifies e he p hp := by
    rcases List.mem_cons.mp he with rfl | he
    · cases hp
      rfl
    rcases List.mem_cons.mp he with rfl | he
    · cases hp
    · exact h.verifies e he p hp

theorem checkNextBitOne_to (hstate : c.state = .checkNextBitOne)
    (hplays : Plays params c exchanges t) (hclear : ¬Shorted exchanges) :
    ∃ a rest, exchanges = c.exchange a :: rest ∧ ¬Shorted rest ∧
      Plays params ({ c with confirmedOnes := (c.confirmOne a).confirmedOnes }.invoke
        .cooldownNextBitOne (.sendReset params.verifyCooldownReset)).core rest t := by
  refine answer_to (by rw [hstate]; rfl) (fun a hshort => ?_) hplays hclear
  simp only [runState, hstate, checkNextBitOne, if_neg hshort, confirmOne_eq]

/-- What the flow does after the answers about one bit. -/
theorem cooldownNextBitOne_to (hstate : c.state = .cooldownNextBitOne)
    (hplays : Plays params c exchanges t) (hclear : ¬Shorted exchanges) :
    ∃ a rest u, exchanges = c.exchange a :: rest ∧ ¬Shorted rest ∧ Plays params u rest t ∧
      u.timer = .stopped ∧ u.request.cvOffset = c.request.cvOffset ∧ u.results = c.results ∧
      u.confirmedOnes = (c.confirmOne a).confirmedOnes ∧
      ((c.nextBitToRead = 7 ∧ u.state = .checkFinalByte ∧ u.request.value = u.confirmedOnes ∧
          ∀ a, (u.exchange a).packet =
            some (.verifyByte c.request.cvOffset u.confirmedOnes)) ∨
        (c.nextBitToRead ≠ 7 ∧ u.state = .readNextBit ∧
          u.nextBitToRead = c.nextBitToRead + 1)) := by
  obtain ⟨a, rest, rfl, hshort, hclear, hrest⟩ :=
    answer_of_clear (by rw [hstate]; rfl) hplays hclear
  rw [next_of_runState (by rw [runState, hstate])] at hrest
  refine ⟨a, rest, _, rfl, hclear, hrest, rfl, ?_⟩
  simp only [cooldownNextBitOne, if_neg hshort, confirmOne_eq]
  by_cases hlast : c.nextBitToRead = 7
  · rw [if_pos hlast]
    exact ⟨rfl, rfl, rfl, .inl ⟨hlast, rfl, rfl, fun a => by rw [exchange_invoke]; rfl⟩⟩
  · rw [if_neg hlast]
    exact ⟨rfl, rfl, rfl, .inr ⟨hlast, rfl, rfl⟩⟩

/-- One bit of a read: its packet and the resets. -/
theorem readNextBit_to (hstate : c.state = .readNextBit)
    (hplays : Plays params c exchanges t) (hclear : ¬Shorted exchanges) :
    ∃ a₁ a₂ rest u, exchanges =
        ⟨some (.sendProgrammingPacket (.verifyBit c.request.cvOffset c.nextBitToRead true)
            params.verifyRepeats false), a₁⟩ ::
          ⟨some (.sendReset params.verifyCooldownReset), a₂⟩ :: rest ∧ ¬Shorted rest ∧
      Plays params u rest t ∧ u.timer = .stopped ∧
      u.request.cvOffset = c.request.cvOffset ∧ u.results = c.results ∧
      (∀ i, u.confirmedOnes.testBit i = (c.confirmedOnes.testBit i ||
        (decide (i = c.nextBitToRead) && (a₁.hasAck || a₂.hasAck)))) ∧
      ((c.nextBitToRead = 7 ∧ u.state = .checkFinalByte ∧ u.request.value = u.confirmedOnes ∧
          ∀ a, (u.exchange a).packet =
            some (.verifyByte c.request.cvOffset u.confirmedOnes)) ∨
        (c.nextBitToRead ≠ 7 ∧ u.state = .readNextBit ∧
          u.nextBitToRead = c.nextBitToRead + 1)) := by
  have h₁ := internal_to (by simp [hstate]) (by simp [hstate, FrontendState.consumes])
    (fun answer => by rw [runState, hstate]) hplays
  obtain ⟨a₁, rest, rfl, hclear, h₂⟩ := checkNextBitOne_to rfl h₁ hclear
  obtain ⟨a₂, rest, u, rfl, hclear, h₃, htimer, hcv, hresults, hones, hnext⟩ :=
    cooldownNextBitOne_to rfl h₂ hclear
  refine ⟨a₁, a₂, rest, u, ?_, hclear, h₃, htimer, hcv, hresults, fun i => ?_, hnext⟩
  · rw [exchange_invoke, readNextBit, exchange_invoke]
  · rw [hones, confirmOne_eq, confirmOne_eq]
    refine (testBit_confirm _ _ i _).trans ?_
    rw [invoke, core, testBit_confirm]
    show ((c.confirmedOnes.testBit i || (decide (i = c.nextBitToRead) && a₁.hasAck)) ||
      (decide (i = c.nextBitToRead) && a₂.hasAck)) = _
    cases c.confirmedOnes.testBit i <;> cases decide (i = c.nextBitToRead) <;>
      cases a₁.hasAck <;> rfl

/-- A flow that checks the byte it has read. -/
theorem checkFinalByte_readsFrom {cv : Nat} (hstate : c.state = .checkFinalByte)
    (htimer : c.timer = .stopped) (hcv : c.request.cvOffset = cv)
    (hvalue : c.request.value = c.confirmedOnes)
    (hasks : ∀ a, (c.exchange a).packet = some (.verifyByte cv c.confirmedOnes))
    (hplays : Plays params c exchanges t) (hclear : ¬Shorted exchanges) :
    ReadsFrom 8 c t exchanges := by
  obtain ⟨a, rest, rfl, hrest, hrequest, hresults⟩ :=
    checkFinalByte_plays hstate htimer hplays hclear
  have hasks' : (c.exchange a).packet =
      some (.verifyByte c.request.cvOffset t.request.value) := by
    rw [hrequest, hcv, hvalue]
    exact hasks a
  refine ⟨fun i => ?_, ?_, fun i hbit hbyte => by omega, ⟨_, List.mem_cons_self, hasks'⟩, ?_⟩
  · have hno : ¬(8 ≤ i ∧ i ≤ 7) := by omega
    simp [hrequest, hvalue, hno]
  · rw [hresults, acked, if_pos hasks']
    rfl
  · intro e he p hp
    rcases List.mem_cons.mp he with rfl | he
    · rw [hasks'] at hp
      cases hp
      rfl
    · rw [hrest e he] at hp
      cases hp

/-- A flow that reads its bits from this one on. -/
theorem readsFrom (left : Nat) (hleft : c.nextBitToRead + left = 7)
    (hstate : c.state = .readNextBit) (hplays : Plays params c exchanges t)
    (hclear : ¬Shorted exchanges) : ReadsFrom c.nextBitToRead c t exchanges := by
  induction left generalizing c exchanges with
  | zero =>
    obtain ⟨a₁, a₂, rest, u, rfl, hclear, hrest, htimer, hcv, hresults, hones,
      ⟨hlast, hu, hvalue, hasks⟩ | ⟨hlast, -, -⟩⟩ := readNextBit_to hstate hplays hclear
    · have hfinal := checkFinalByte_readsFrom hu htimer hcv hvalue hasks hrest hclear
      rw [hlast] at hones ⊢
      exact hfinal.cons (Nat.le_refl 7) hcv hresults hones
    · omega
  | succ left ih =>
    obtain ⟨a₁, a₂, rest, u, rfl, hclear, hrest, htimer, hcv, hresults, hones,
      ⟨hlast, -, -, -⟩ | ⟨hlast, hu, hbit⟩⟩ := readNextBit_to hstate hplays hclear
    · omega
    · have hfrom := ih (by omega) hu hrest hclear
      rw [hbit] at hfrom
      exact hfrom.cons (by omega) hcv hresults hones

/-- A read in direct mode asks for its bits from the first one on. -/
theorem directRead_plays (hstate : c.state = .actServiceMode)
    (hcmd : c.request.cmd = .directReadByte) (hplays : Plays params c exchanges t)
    (hclear : ¬Shorted exchanges) :
    ReadsFrom 0 { c with confirmedOnes := 0 } t exchanges := by
  have hact : c.actServiceMode = some (c.goto .directReadByte) := by
    unfold actServiceMode
    rw [hcmd]
  have h₁ := internal_to (by simp [hstate]) (by simp [hstate, FrontendState.consumes])
    (fun answer => by rw [runState, hstate, hact]) hplays
  have h₂ := internal_to (by simp [goto]) (by simp [goto, FrontendState.consumes])
    (fun answer => rfl) h₁
  obtain ⟨hvalue, hresults, hbits, hbyte, hverifies⟩ := readsFrom 7 rfl rfl h₂ hclear
  exact ⟨hvalue, hresults, hbits, hbyte, hverifies⟩

end ProgrammingTrackFrontend

end OpenmrnCue.CommandStation
