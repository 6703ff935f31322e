import OpenmrnCue.CommandStation.ServiceModeStages

/-! What the results of service mode tell about the answers of the backend. -/

namespace OpenmrnCue.CommandStation

/-- The requests for the programming track, with those that are not implemented. -/
def RequestType.isServiceMode : RequestType → Bool
  | .directWriteByte | .directWriteBit | .directReadByte | .directReadBit | .pagedWriteByte
  | .pagedVerifyByte | .pagedReadByte => true
  | .pomWriteByte | .pomReadByte | .pomWriteBit | .exitServiceMode => false

namespace ProgrammingTrackFrontend

open Exchange

variable {params : FrontendParams} {s t c : ProgrammingTrackFrontend}
variable {exchanges : List Exchange}

theorem sendInitialResets_to (hstate : c.state = .sendInitialResets)
    (hplays : Plays params c exchanges t) (hclear : ¬Shorted exchanges) :
    ∃ a rest, exchanges = c.exchange a :: rest ∧ ¬Shorted rest ∧
      Plays params (c.invoke .enterServiceModeDone (.sendReset 85)).core rest t := by
  refine answer_to (by rw [hstate]; rfl) (fun a hshort => ?_) hplays hclear
  simp only [runState, hstate, sendInitialResets, if_neg hshort]

theorem enterServiceModeDone_to (hstate : c.state = .enterServiceModeDone)
    (hplays : Plays params c exchanges t) (hclear : ¬Shorted exchanges) :
    ∃ a rest, exchanges = c.exchange a :: rest ∧ ¬Shorted rest ∧
      Plays params (c.goto .actServiceMode).core rest t := by
  refine answer_to (by rw [hstate]; rfl) (fun a hshort => ?_) hplays hclear
  simp only [runState, hstate, enterServiceModeDone, if_neg hshort]

/-- The way into service mode asks for no packet. -/
theorem enterServiceMode_to (hbackend : params.hasBackend = true)
    (hstate : c.state = .enterServiceMode) (hplays : Plays params c exchanges t)
    (hclear : ¬Shorted exchanges) :
    ∃ pre rest u, exchanges = pre ++ rest ∧ (∀ e ∈ pre, e.packet = none) ∧ ¬Shorted rest ∧
      Plays params u rest t ∧ u.state = .actServiceMode ∧ u.request = c.request ∧
      u.results = c.results := by
  have hidle : c.state ≠ .idle := by simp [hstate]
  have hconsumes : c.state.consumes = false := by
    rw [hstate]
    rfl
  by_cases hmode : c.inServiceMode = true
  · have h₁ := internal_to hidle hconsumes
      (fun answer => by rw [runState, hstate, enterServiceMode, if_pos hmode]) hplays
    exact ⟨[], exchanges, _, rfl, by simp, hclear, h₁, rfl, rfl, rfl⟩
  · have hrun : c.enterServiceMode params =
        { c with inServiceMode := true }.invoke .sendInitialResets .enterServiceMode := by
      rw [enterServiceMode, if_neg hmode, hbackend]
      rfl
    have h₁ := internal_to hidle hconsumes (fun answer => by rw [runState, hstate, hrun]) hplays
    obtain ⟨a₁, rest, rfl, hclear, h₂⟩ := sendInitialResets_to rfl h₁ hclear
    obtain ⟨a₂, rest, rfl, hclear, h₃⟩ := enterServiceModeDone_to rfl h₂ hclear
    refine ⟨[_, _], rest, _, rfl, ?_, hclear, h₃, rfl, rfl, rfl⟩
    simp [exchange_invoke, packet]

/-- A request for the programming track goes into service mode. -/
theorem entry_serviceMode (hcmd : c.request.cmd.isServiceMode = true)
    (hpaged : c.request.cmd ≠ .pagedReadByte) : c.entry = c.goto .enterServiceMode := by
  unfold entry
  cases hc : c.request.cmd <;> simp_all [RequestType.isServiceMode]

theorem enter_to (hbackend : params.hasBackend = true) (hstate : c.state = .entry)
    (hcmd : c.request.cmd.isServiceMode = true) (hpaged : c.request.cmd ≠ .pagedReadByte)
    (hplays : Plays params c exchanges t) (hclear : ¬Shorted exchanges) :
    ∃ pre rest u, exchanges = pre ++ rest ∧ (∀ e ∈ pre, e.packet = none) ∧ ¬Shorted rest ∧
      Plays params u rest t ∧ u.state = .actServiceMode ∧ u.request = c.request ∧
      u.results = c.results := by
  have h₁ := internal_to (by simp [hstate]) (by simp [hstate, FrontendState.consumes])
    (fun answer => by rw [runState, hstate, entry_serviceMode hcmd hpaged]) hplays
  have h₂ := enterServiceMode_to hbackend rfl h₁ hclear
  exact h₂

/-- The frontend reports a short circuit exactly when an answer did. -/
theorem entry_shorted (hbackend : params.hasBackend = true) (hstate : c.state = .entry)
    (hcmd : c.request.cmd.isServiceMode = true) (hplays : Plays params c exchanges t) :
    ∃ code, t.results = c.results ++ [code] ∧ (code = .pgmShort ↔ Shorted exchanges) := by
  have hidle : c.state ≠ .idle := by simp [hstate]
  have hconsumes : c.state.consumes = false := by
    rw [hstate]
    rfl
  by_cases hpaged : c.request.cmd = .pagedReadByte
  · have hentry : c.entry = c.returnWith .unimplementedCmd := by
      unfold entry
      rw [hpaged]
    have h₁ := internal_to hidle hconsumes (fun answer => by rw [runState, hstate, hentry]) hplays
    obtain ⟨rfl, rfl⟩ := (plays_idle_iff rfl).mp h₁
    exact ⟨.unimplementedCmd, rfl, by simp [Shorted]⟩
  · have h₁ := internal_to hidle hconsumes
      (fun answer => by rw [runState, hstate, entry_serviceMode hcmd hpaged]) hplays
    have h₂ := serves_shorted hbackend h₁ rfl rfl
    exact h₂

/-- What a read returns. -/
structure ReadOutcome (cv : Nat) (exchanges : List Exchange) (value : Nat) (code : ResultCode) :
    Prop where
  bits (i : Nat) :
    value.testBit i = (decide (i < 8) && acked (.verifyBit cv i true) exchanges)
  ok : code = .ok ↔ acked (.verifyByte cv value) exchanges = true
  failedVerify : code = .failedVerify ↔ acked (.verifyByte cv value) exchanges = false

/-- What a write returns that has these packets for its stages. -/
structure WriteOutcome (write verify : ServicePacket) (exchanges : List Exchange)
    (code : ResultCode) : Prop where
  ok : code = .ok ↔ acked verify exchanges = true
  failedVerify : code = .failedVerify ↔
    acked verify exchanges = false ∧ acked write exchanges = true
  noLoco : code = .noLoco ↔ acked verify exchanges = false ∧ acked write exchanges = false

/-- The packets of the stages of a write. -/
def writeStages (r : FrontendRequest) : Option (ServicePacket × ServicePacket) :=
  match r.cmd with
  | .directWriteByte | .directWriteBit =>
    match directWritePacket r, directVerifyPacket r with
    | some write, some verify => some (write, verify)
    | _, _ => none
  | .pagedWriteByte =>
    some (.pagedWriteReg (pageOf r.cvOffset).2 r.value,
      .pagedVerifyReg (pageOf r.cvOffset).2 r.value)
  | _ => none

theorem writeOutcome_verdict {write verify : ServicePacket} :
    WriteOutcome write verify exchanges
      (verdict (acked write exchanges) (acked verify exchanges)) := by
  unfold verdict
  constructor <;> cases acked write exchanges <;> cases acked verify exchanges <;> decide

/-- The result of a read. -/
theorem readOutcome (hbackend : params.hasBackend = true) (hstate : c.state = .entry)
    (hcmd : c.request.cmd = .directReadByte) (hplays : Plays params c exchanges t)
    (hclear : ¬Shorted exchanges) :
    ∃ code, t.results = c.results ++ [code] ∧
      ReadOutcome c.request.cvOffset exchanges t.request.value code := by
  obtain ⟨pre, rest, u, rfl, hpre, hclear, h₁, hu, hrequest, hresults⟩ :=
    enter_to hbackend hstate (by rw [hcmd]; rfl) (by simp [hcmd]) hplays hclear
  have hreads := directRead_plays hu (hrequest ▸ hcmd) h₁ hclear
  refine ⟨_, hresults ▸ hreads.results, fun i => ?_, ?_, ?_⟩
  · have hbyte : i ≤ 7 ↔ i < 8 := by omega
    rw [hreads.value i, acked_append hpre, ← hrequest]
    simp [hbyte]
  · rw [acked_append hpre, ← hrequest]
    dsimp only
    cases acked (.verifyByte u.request.cvOffset t.request.value) rest <;> decide
  · rw [acked_append hpre, ← hrequest]
    dsimp only
    cases acked (.verifyByte u.request.cvOffset t.request.value) rest <;> decide

theorem directWrite_packets {r : FrontendRequest} {write verify : ServicePacket}
    (hcmd : r.cmd = .directWriteByte ∨ r.cmd = .directWriteBit)
    (hstages : writeStages r = some (write, verify)) :
    directWritePacket r = some write ∧ directVerifyPacket r = some verify := by
  rcases hcmd with hcmd | hcmd
  all_goals
    simp only [writeStages, hcmd, directWritePacket, directVerifyPacket, Option.some.injEq,
      Prod.mk.injEq] at hstages ⊢
    exact hstages

/-- The packet that verifies a write in direct mode asks for what was written. -/
theorem holds_store {r : FrontendRequest} {write verify : ServicePacket} (memory : Nat → Nat)
    (hwrite : directWritePacket r = some write) (hverify : directVerifyPacket r = some verify) :
    holds memory write = none ∧ verify.verifies = true ∧
      holds (store memory write) verify = some true := by
  unfold directWritePacket at hwrite
  unfold directVerifyPacket at hverify
  split at hwrite
  · cases hwrite
    rw [‹r.cmd = _›] at hverify
    cases hverify
    exact ⟨rfl, rfl, by simp [holds, store]⟩
  · cases hwrite
    rw [‹r.cmd = _›] at hverify
    cases hverify
    refine ⟨rfl, rfl, ?_⟩
    by_cases hbit : (memory r.cvOffset).testBit r.bitOffset = (r.value != 0)
    · rw [store, if_pos hbit, holds, hbit, beq_self_eq_true]
    · have hflip : (!(memory r.cvOffset).testBit r.bitOffset) = (r.value != 0) := by
        cases hold : (memory r.cvOffset).testBit r.bitOffset <;>
          cases hnew : (r.value != 0) <;> simp_all
      rw [store, if_neg hbit, holds, Function.update_self, Nat.testBit_xor, Nat.shiftLeft_eq,
        Nat.one_mul, Nat.testBit_two_pow_self, Bool.xor_true, hflip, beq_self_eq_true]
  · cases hwrite

/-- The exchanges of a write in direct mode. -/
theorem directWrite_exchanges {write verify : ServicePacket} (hbackend : params.hasBackend = true)
    (hstate : c.state = .entry)
    (hcmd : c.request.cmd = .directWriteByte ∨ c.request.cmd = .directWriteBit)
    (hwrite : directWritePacket c.request = some write)
    (hverify : directVerifyPacket c.request = some verify)
    (hplays : Plays params c exchanges t) (hclear : ¬Shorted exchanges) :
    ∃ pre a₁ a₂ a₃ a₄, (∀ e ∈ pre, e.packet = none) ∧ exchanges = pre ++
        [⟨some (.sendProgrammingPacket write 5 false), a₁⟩, ⟨some (.sendReset 15), a₂⟩,
          ⟨some (.sendProgrammingPacket verify params.verifyRepeats false), a₃⟩,
          ⟨some (.sendReset params.verifyCooldownReset), a₄⟩] ∧
      t.results = c.results ++ [verdict (a₁.hasAck || a₂.hasAck) (a₃.hasAck || a₄.hasAck)] := by
  have hservice : c.request.cmd.isServiceMode = true ∧ c.request.cmd ≠ .pagedReadByte := by
    rcases hcmd with hcmd | hcmd <;> rw [hcmd] <;> exact ⟨rfl, by simp⟩
  obtain ⟨pre, rest, u, rfl, hpre, hclear, h₁, hu, hrequest, hresults⟩ :=
    enter_to hbackend hstate hservice.1 hservice.2 hplays hclear
  obtain ⟨a₁, a₂, a₃, a₄, rfl, -, ht⟩ :=
    directWrite_plays hu (hrequest ▸ hwrite) (hrequest ▸ hverify) h₁ hclear
  exact ⟨pre, a₁, a₂, a₃, a₄, hpre, rfl, hresults ▸ ht⟩

/-- The result of a write. -/
theorem writeOutcome {write verify : ServicePacket} (hbackend : params.hasBackend = true)
    (hstate : c.state = .entry) (hstages : writeStages c.request = some (write, verify))
    (hreset : ¬(c.request.cmd = .pagedWriteByte ∧ c.request.cvOffset = 7 ∧ c.request.value = 8))
    (hplays : Plays params c exchanges t) (hclear : ¬Shorted exchanges) :
    ∃ code, t.results = c.results ++ [code] ∧ WriteOutcome write verify exchanges code := by
  suffices hverdict : t.results =
      c.results ++ [verdict (acked write exchanges) (acked verify exchanges)] from
    ⟨_, hverdict, writeOutcome_verdict⟩
  by_cases hcmd : c.request.cmd = .directWriteByte ∨ c.request.cmd = .directWriteBit
  · obtain ⟨hwrite, hverify⟩ := directWrite_packets hcmd hstages
    obtain ⟨pre, a₁, a₂, a₃, a₄, hpre, rfl, hresults⟩ :=
      directWrite_exchanges hbackend hstate hcmd hwrite hverify hplays hclear
    have hne : write ≠ verify := by
      obtain ⟨hholds, -, hverified⟩ := holds_store (fun _ => 0) hwrite hverify
      rintro rfl
      cases write <;> simp_all [holds]
    rw [hresults, acked_append hpre, acked_append hpre]
    simp [acked, packet, ackedInResets, hne]
  · have hpaged : c.request.cmd = .pagedWriteByte ∧
        write = .pagedWriteReg (pageOf c.request.cvOffset).2 c.request.value ∧
        verify = .pagedVerifyReg (pageOf c.request.cvOffset).2 c.request.value := by
      unfold writeStages at hstages
      split at hstages
      · exact absurd (.inl ‹_›) hcmd
      · exact absurd (.inr ‹_›) hcmd
      · cases hstages
        exact ⟨‹_›, rfl, rfl⟩
      · cases hstages
    obtain ⟨hcmd, rfl, rfl⟩ := hpaged
    obtain ⟨pre, rest, u, rfl, hpre, hclear, h₁, hu, hrequest, hresults⟩ :=
      enter_to hbackend hstate (by rw [hcmd]; rfl) (by simp [hcmd]) hplays hclear
    obtain ⟨a₁, a₂, a₃, a₄, resets, rfl, -, ht⟩ := pagedWrite_plays hu (hrequest ▸ hcmd)
      (fun h => hreset ⟨hcmd, hrequest ▸ h⟩) h₁ hclear
    rw [ht, hresults, acked_append hpre, acked_append hpre, hrequest]
    simp [acked, packet, ackedInResets]

/-- A decoder's variable is what a read returns. -/
theorem readStored (hbackend : params.hasBackend = true)
    (hstate : c.state = .entry) (hcmd : c.request.cmd = .directReadByte)
    (hplays : Plays params c exchanges t) (hclear : ¬Shorted exchanges) {memory : Nat → Nat}
    (hbyte : memory c.request.cvOffset < 256) (htruthful : Truthful memory exchanges) :
    t.results = c.results ++ [.ok] ∧ t.request.value = memory c.request.cvOffset ∧
      stored memory exchanges = memory := by
  obtain ⟨pre, rest, u, rfl, hpre, hclear, h₁, hu, hrequest, hresults⟩ :=
    enter_to hbackend hstate (by rw [hcmd]; rfl) (by simp [hcmd]) hplays hclear
  have hreads := directRead_plays hu (hrequest ▸ hcmd) h₁ hclear
  have htruthful := truthful_append hpre htruthful
  have hvalue : t.request.value = memory c.request.cvOffset := by
    refine Nat.eq_of_testBit_eq fun i => ?_
    rw [hreads.value i]
    by_cases hi : i ≤ 7
    · have hacked := acked_of_truthful hreads.verifies htruthful
        (hreads.asksBit i (Nat.zero_le i) hi) rfl
      dsimp only at hacked ⊢
      rw [hacked, hrequest]
      simp [hi]
    · have hhigh : (memory c.request.cvOffset).testBit i = false :=
        Nat.testBit_lt_two_pow (Nat.lt_of_lt_of_le hbyte
          (Nat.pow_le_pow_right Nat.two_pos (by omega : 8 ≤ i)))
      simp [hi, hhigh]
  have hacked := acked_of_truthful hreads.verifies htruthful hreads.asksByte rfl
  refine ⟨?_, hvalue, ?_⟩
  · rw [hreads.results, hacked]
    simp [hresults, hvalue, hrequest]
  · rw [stored_append hpre, stored_of_verifies hreads.verifies]

/-- A decoder stores what is written, and the result says so. -/
theorem writeStored {write verify : ServicePacket} (hbackend : params.hasBackend = true)
    (hstate : c.state = .entry)
    (hcmd : c.request.cmd = .directWriteByte ∨ c.request.cmd = .directWriteBit)
    (hwrite : directWritePacket c.request = some write)
    (hverify : directVerifyPacket c.request = some verify)
    (hplays : Plays params c exchanges t) (hclear : ¬Shorted exchanges) {memory : Nat → Nat}
    (htruthful : Truthful memory exchanges) :
    t.results = c.results ++ [.ok] ∧ stored memory exchanges = store memory write := by
  obtain ⟨pre, a₁, a₂, a₃, a₄, hpre, rfl, hresults⟩ :=
    directWrite_exchanges hbackend hstate hcmd hwrite hverify hplays hclear
  obtain ⟨-, -, hanswer, -⟩ := truthful_append hpre htruthful
  obtain ⟨-, hverifies, hholds⟩ := holds_store memory hwrite hverify
  have hacked : (a₃.hasAck || a₄.hasAck) = true := hanswer verify true rfl hholds
  refine ⟨?_, ?_⟩
  · rw [hresults, hacked]
    rfl
  · rw [stored_append hpre]
    have hafter : ∀ m, after m
        ⟨some (.sendProgrammingPacket verify params.verifyRepeats false), a₃⟩ = m := by
      intro m
      refine after_of_verifies fun p hp => ?_
      cases hp
      exact hverifies
    exact hafter (store memory write)

/-- What the frontend returns for a request that met no short circuit: this value and this code. -/
structure ServiceModeOutcome (r : FrontendRequest) (exchanges : List Exchange) (value : Nat)
    (code : ResultCode) : Prop where
  read : r.cmd = .directReadByte → ReadOutcome r.cvOffset exchanges value code
  write : ∀ write verify, writeStages r = some (write, verify) →
    ¬(r.cmd = .pagedWriteByte ∧ r.cvOffset = 7 ∧ r.value = 8) →
    WriteOutcome write verify exchanges code
  readStored : r.cmd = .directReadByte → ∀ memory : Nat → Nat, memory r.cvOffset < 256 →
    Truthful memory exchanges →
    code = .ok ∧ value = memory r.cvOffset ∧ stored memory exchanges = memory
  writeByteStored : r.cmd = .directWriteByte → ∀ memory : Nat → Nat, Truthful memory exchanges →
    code = .ok ∧ stored memory exchanges = Function.update memory r.cvOffset r.value
  writeBitStored : r.cmd = .directWriteBit → ∀ memory : Nat → Nat, Truthful memory exchanges →
    code = .ok ∧ (∀ cv, cv ≠ r.cvOffset → stored memory exchanges cv = memory cv) ∧
      ∀ i, (stored memory exchanges r.cvOffset).testBit i =
        if i = r.bitOffset then r.value != 0 else (memory r.cvOffset).testBit i

theorem testBit_store (memory : Nat → Nat) (cv bit i : Nat) (value : Bool) :
    (store memory (.writeBit cv bit value) cv).testBit i =
      if i = bit then value else (memory cv).testBit i := by
  by_cases hbit : (memory cv).testBit bit = value
  · rw [store, if_pos hbit]
    by_cases hi : i = bit
    · rw [if_pos hi, hi, hbit]
    · rw [if_neg hi]
  · rw [store, if_neg hbit, Function.update_self, Nat.testBit_xor, Nat.shiftLeft_eq, Nat.one_mul,
      Nat.testBit_two_pow]
    by_cases hi : i = bit
    · subst hi
      cases hold : (memory cv).testBit i <;> cases value <;> simp_all
    · simp [hi, Ne.symm hi]

theorem store_of_ne {memory : Nat → Nat} {cv other bit : Nat} (value : Bool) (h : other ≠ cv) :
    store memory (.writeBit cv bit value) other = memory other := by
  by_cases hbit : (memory cv).testBit bit = value
  · rw [store, if_pos hbit]
  · rw [store, if_neg hbit, Function.update_of_ne h]

/-- The outcome of a request that met no short circuit. -/
theorem outcome_of_plays {code : ResultCode} (hbackend : params.hasBackend = true)
    (hstate : c.state = .entry) (hplays : Plays params c exchanges t)
    (hresults : t.results = c.results ++ [code]) (hclear : ¬Shorted exchanges) :
    ServiceModeOutcome c.request exchanges t.request.value code := by
  have hcode : ∀ other, t.results = c.results ++ [other] → code = other := by
    intro other hother
    rw [hresults] at hother
    exact List.singleton_inj.mp (List.append_cancel_left hother)
  constructor
  case read =>
    intro hread
    obtain ⟨other, hother, houtcome⟩ := readOutcome hbackend hstate hread hplays hclear
    exact hcode other hother ▸ houtcome
  case write =>
    intro write verify hstages hreset
    obtain ⟨other, hother, houtcome⟩ :=
      writeOutcome hbackend hstate hstages hreset hplays hclear
    exact hcode other hother ▸ houtcome
  case readStored =>
    intro hread memory hbyte htruthful
    obtain ⟨hother, hvalue, hstored⟩ :=
      readStored hbackend hstate hread hplays hclear hbyte htruthful
    exact ⟨hcode _ hother, hvalue, hstored⟩
  case writeByteStored =>
    intro hwrite memory htruthful
    obtain ⟨hother, hstored⟩ := writeStored hbackend hstate (.inl hwrite)
      (by rw [directWritePacket, hwrite]) (by rw [directVerifyPacket, hwrite]) hplays hclear
      htruthful
    exact ⟨hcode _ hother, hstored⟩
  case writeBitStored =>
    intro hwrite memory htruthful
    obtain ⟨hother, hstored⟩ := writeStored hbackend hstate (.inr hwrite)
      (by rw [directWritePacket, hwrite]) (by rw [directVerifyPacket, hwrite]) hplays hclear
      htruthful
    refine ⟨hcode _ hother, fun cv hcv => ?_, fun i => ?_⟩
    · rw [hstored, store_of_ne _ hcv]
    · rw [hstored, testBit_store]

/-- The results of service mode tell what the decoder answered. -/
theorem results_tell_answers (params : FrontendParams) (hbackend : params.hasBackend = true)
    (s : ProgrammingTrackFrontend) (hstate : s.state = .entry)
    (hcmd : s.request.cmd.isServiceMode = true) :
    (∀ answers : Nat → FrontendAnswer, ∃ exchanges t, Serves params s exchanges t ∧
      exchanges.map (·.answer) = (List.range exchanges.length).map answers) ∧
    ∀ exchanges t, Serves params s exchanges t → ∃ code, t.results = s.results ++ [code] ∧
      (code = .pgmShort ↔ Shorted exchanges) ∧
      (¬Shorted exchanges → ServiceModeOutcome s.request exchanges t.request.value code) := by
  have hcore : s.core.state = .entry := hstate
  refine ⟨exists_serves params fun h => by simp [hstate] at h, fun exchanges t hserves => ?_⟩
  obtain ⟨code, hresults, hshort⟩ := entry_shorted hbackend hcore hcmd hserves.plays
  refine ⟨code, hresults, hshort, fun hclear => ?_⟩
  have houtcome := outcome_of_plays hbackend hcore hserves.plays hresults hclear
  exact houtcome

/-- A frontend in service mode that is to write a variable. -/
def sampleWrite : ProgrammingTrackFrontend :=
  { start with
    state := .entry
    inServiceMode := true
    request := ⟨.directWriteByte, 7, 42, 0, .unspecified, 0⟩ }

/-- An answer of the backend that may bring an acknowledgement. -/
def backendAnswer (ack : Bool) : FrontendAnswer := ⟨false, ack, .pending, false, false, 0⟩

/-- The decoder acknowledges the verification in the resets. -/
def sampleExchanges : List Exchange :=
  [⟨some (.sendProgrammingPacket (.writeByte 7 42) 5 false), backendAnswer false⟩,
    ⟨some (.sendReset 15), backendAnswer false⟩,
    ⟨some (.sendProgrammingPacket (.verifyByte 7 42) 3 false), backendAnswer false⟩,
    ⟨some (.sendReset 6), backendAnswer true⟩]

theorem sampleWrite_stored : ∃ t, Serves ⟨true, 3, 6⟩ sampleWrite sampleExchanges t ∧
    t.results = [.ok] ∧
      stored (fun _ => 3) sampleExchanges = Function.update (fun _ => 3) 7 42 := by
  have hserves : ∃ t, Serves ⟨true, 3, 6⟩ sampleWrite sampleExchanges t :=
    ⟨_, .internal (backendAnswer false) (by decide) rfl rfl <|
      .internal (backendAnswer false) (by decide) rfl rfl <|
      .internal (backendAnswer false) (by decide) rfl rfl <|
      .answer (backendAnswer false) rfl rfl <| .answer (backendAnswer false) rfl rfl <|
      .answer (backendAnswer false) rfl rfl <| .answer (backendAnswer true) rfl rfl <| .done rfl⟩
  obtain ⟨t, hserves⟩ := hserves
  obtain ⟨code, hresults, -, houtcome⟩ :=
    (results_tell_answers ⟨true, 3, 6⟩ rfl sampleWrite rfl rfl).2 sampleExchanges t hserves
  have hclear : ¬Shorted sampleExchanges := by
    simp [Shorted, sampleExchanges, backendAnswer]
  have htruthful : Truthful (fun _ => 3) sampleExchanges := by
    refine ⟨fun p value hp hvalue => ?_, fun p value hp => ?_, fun p value hp hvalue => ?_,
      fun p value hp => ?_, trivial⟩
    · cases hp
      cases hvalue
    · cases hp
    · cases hp
      cases hvalue
      rfl
    · cases hp
  obtain ⟨hcode, hstored⟩ := (houtcome hclear).writeByteStored rfl _ htruthful
  exact ⟨t, hserves, hcode ▸ hresults, hstored⟩

end ProgrammingTrackFrontend

end OpenmrnCue.CommandStation
