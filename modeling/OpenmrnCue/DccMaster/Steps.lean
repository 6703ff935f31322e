import OpenmrnCue.DccMaster.Loop

/-! What the parts of the master leave alone.  Commands change locomotives and the queue; only the
loop sends packets for the track, and only the refresh has turns. -/

namespace OpenmrnCue.DccMaster

open Conformance

/-- A packet of which the booster makes a packet for the track. -/
def CanPacket.isTrack (p : CanPacket) : Bool := p.sid == slaveSid && !(p.d 0).getLsbD 0

/-- A response of service mode. -/
def CanPacket.isResponse (p : CanPacket) : Bool := p.sid == 0xc048

/-- A packet that is neither for the track nor a response of service mode. -/
def Event.isQuiet : Event → Bool
  | .sent p => !p.isTrack && !p.isResponse
  | _ => false

/-- What the refresh needs to know of a locomotive. -/
def Loco.turnPart (l : Loco) : Byte × Bool × BitVec 3 × BitVec 4 :=
  (l.address, l.loopAtSpeed, l.driveType, l.loopPosition)

namespace Master

/-- A step that changes locomotives and the queue, and sends nothing for the track. -/
structure Calm (m : Master) (r : Master × List Event) : Prop where
  rest : r.1 = { m with priority := r.1.priority, locos := r.1.locos }
  locos : r.1.locos.map Loco.turnPart = m.locos.map Loco.turnPart
  quiet : ∀ e ∈ r.2, e.isQuiet = true

variable {m : Master} {r : Master × List Event}

theorem quiet_nil : ∀ e ∈ ([] : List Event), e.isQuiet = true := by simp

theorem calm_of_quiet (m : Master) {events : List Event} (h : ∀ e ∈ events, e.isQuiet = true) :
    Calm m (m, events) :=
  ⟨rfl, rfl, h⟩

theorem calm_refl (m : Master) : Calm m (m, []) := calm_of_quiet m quiet_nil

theorem Calm.append {r' : Master × List Event} (h : Calm m r) (h' : Calm r.1 r') :
    Calm m (r'.1, r.2 ++ r'.2) := by
  refine ⟨?_, h'.locos.trans h.locos, fun e he => ?_⟩
  · have hrest := h'.rest
    rw [h.rest] at hrest
    exact hrest
  · rcases List.mem_append.mp he with he | he
    · exact h.quiet e he
    · exact h'.quiet e he

/-- A locomotive in the table changes, but not for the refresh. -/
theorem calm_setLoco {id : Nat} {l l' : Loco} (hl : m.locos[id]? = some l)
    (hsame : l'.turnPart = l.turnPart) {events : List Event}
    (hquiet : ∀ e ∈ events, e.isQuiet = true) : Calm m (m.setLoco id l', events) := by
  refine ⟨rfl, ?_, hquiet⟩
  obtain ⟨hid, rfl⟩ := List.getElem?_eq_some_iff.mp hl
  have hmap : id < (m.locos.map Loco.turnPart).length := by rwa [List.length_map]
  have hpart : m.locos[id].turnPart = (m.locos.map Loco.turnPart)[id] := by
    rw [List.getElem_map]
  rw [setLoco, List.map_set, hsame, hpart, List.set_getElem_self]

theorem Calm.addToPriorityQueue (h : Calm m r) (id : Nat) (what : Byte) :
    Calm m ((r.1.addToPriorityQueue id what).2, r.2) := by
  obtain ⟨m', events⟩ := r
  obtain ⟨hrest, hlocos, hquiet⟩ := h
  unfold Master.addToPriorityQueue
  split
  · refine ⟨?_, hlocos, hquiet⟩
    dsimp only at hrest ⊢
    rw [hrest]
  · exact ⟨hrest, hlocos, hquiet⟩

theorem quiet_locoPacket (id : Byte) (data : List Byte) :
    (Event.sent (locoPacket 0x4048 id data)).isQuiet = true := rfl

theorem quiet_respond (mapping : List Byte) (id : Byte) (l : Loco) (what : Byte) :
    ∀ e ∈ respondLocoFnValue mapping id l what, e.isQuiet = true := by
  intro e he
  unfold respondLocoFnValue at he
  split at he
  · exact List.mem_singleton.mp he ▸ quiet_locoPacket _ _
  split at he
  · exact List.mem_singleton.mp he ▸ quiet_locoPacket _ _
  split at he
  · exact List.mem_singleton.mp he ▸ quiet_locoPacket _ _
  split at he
  · cases he
  · exact List.mem_singleton.mp he ▸ quiet_locoPacket _ _

/-- A locomotive changes, which is told, and an entry of the queue is made for it. -/
theorem calm_change {id : Nat} {l : Loco} (hl : m.locos[id]? = some l) (l' : Loco)
    (hsame : l'.turnPart = l.turnPart) (what : Byte) {events : List Event}
    (hquiet : ∀ e ∈ events, e.isQuiet = true) :
    Calm m (((m.setLoco id l').addToPriorityQueue id what).2, events) :=
  (calm_setLoco hl hsame hquiet).addToPriorityQueue id what

theorem known_eq_some {id : Nat} {l : Loco} (h : m.known id = some l) :
    m.locos[id]? = some l ∧ l.address ≠ 0 := by
  obtain ⟨hl, haddress⟩ := Option.filter_eq_some_iff.mp h
  exact ⟨hl, of_decide_eq_true haddress⟩

/-! ### Commands -/

theorem calm_setLocoPaused (m : Master) (id : Nat) (isPaused : Byte) :
    Calm m (m.setLocoPaused id isPaused).2 := by
  unfold setLocoPaused
  split
  · exact calm_refl m
  · next l hl =>
    exact calm_change (known_eq_some hl).1 { l with paused := isPaused ≠ 0 } rfl prioSpeed
      (quiet_respond _ _ _ _)

theorem calm_setLocoFn (m : Master) (id : Nat) (fn value : Byte) :
    Calm m ((m.setLocoFn id fn value).2, []) := by
  unfold setLocoFn
  split
  · exact calm_refl m
  · next l hl =>
    split
    · exact calm_refl m
    · exact calm_change (known_eq_some hl).1 (l.setFn fn.toNat value) rfl fn quiet_nil

theorem calm_setLocoAbsoluteSpeed (m : Master) (id : Nat) (absSpeed : Byte) :
    Calm m (m.setLocoAbsoluteSpeed id absSpeed) := by
  unfold setLocoAbsoluteSpeed
  split
  · exact calm_refl m
  · next l hl =>
    exact calm_change (known_eq_some hl).1 { l with speed := absSpeed } rfl prioLspeed
      (quiet_respond _ _ _ _)

theorem calm_setLocoRelativeSpeed (m : Master) (id : Nat) (relSpeed : Byte) :
    Calm m (m.setLocoRelativeSpeed id relSpeed, []) := by
  unfold setLocoRelativeSpeed
  split
  · exact calm_refl m
  · next l hl =>
    split
    · exact calm_refl m
    · exact calm_change (known_eq_some hl).1 { l with relativeSpeed := relSpeed } rfl prioLspeed
        quiet_nil

theorem calm_setLocoReversed {id : Nat} {isReversed : Byte}
    (h : m.setLocoReversed id isReversed = some r) : Calm m r := by
  obtain ⟨l, hl, rfl⟩ := Option.map_eq_some_iff.mp h
  split
  · exact ⟨rfl, rfl, quiet_respond [] (BitVec.ofNat 8 id) l 33⟩
  · exact calm_change hl { l with reversed := isReversed.getLsbD 0, dirChanged := true } rfl
      prioSpeed (quiet_respond _ _ _ _)

theorem calm_handleSet {db : List ConstLoco} {p : CanPacket} (h : m.handleSet db p = some r) :
    Calm m r := by
  unfold handleSet at h
  split at h
  · dsimp only at h
    split at h
    · cases h
      exact calm_refl m
    · obtain ⟨l, hl, h⟩ := Option.bind_eq_some_iff.mp h
      split at h
      · cases h
        exact calm_change hl
          { l with dirChanged := (p.d 2 ^^^ l.speed).getLsbD 7, speed := p.d 2 } rfl prioLspeed
          quiet_nil
      split at h
      · cases h
        exact calm_setLocoPaused m _ _
      split at h
      · exact calm_setLocoReversed h
      split at h
      · cases h
        exact calm_refl m
      · cases h
        exact calm_change hl (l.setFn _ (p.d 2)) rfl _ quiet_nil
  · cases h
    exact calm_refl m

theorem quiet_handleQuery {db : List ConstLoco} {p : CanPacket} {events : List Event}
    (h : m.handleQuery db p = some events) : ∀ e ∈ events, e.isQuiet = true := by
  unfold handleQuery at h
  split at h
  · obtain ⟨l, hl, rfl⟩ := Option.map_eq_some_iff.mp h
    exact quiet_respond _ _ _ _
  · cases h
    simp

theorem quiet_handlePower (p : CanPacket) : ∀ e ∈ handlePower p, e.isQuiet = true := by
  intro e he
  unfold handlePower at he
  split at he
  · rw [List.mem_singleton.mp he]
    split <;> rfl
  · cases he

end Master

/-! ### Packets for the track -/

/-- The data of a packet for the track that asks for no acknowledgement. -/
def PlainData (data : List Byte) : Prop :=
  ∃ cmd rest, data = cmd :: rest ∧ cmd.getLsbD 0 = false ∧ cmd.getLsbD 4 = false

theorem PlainData.isTrack {data : List Byte} (h : PlainData data) :
    (boosterPacket data).isTrack = true := by
  obtain ⟨cmd, rest, rfl, hcmd, -⟩ := h
  change (slaveSid == slaveSid && !cmd.getLsbD 0) = true
  rw [hcmd]
  rfl

theorem plainData_dccPacket {cmd : Byte} (hcmd : cmd.getLsbD 0 = false ∧ cmd.getLsbD 4 = false)
    (len : Nat) (d1 d2 d3 : Byte) : PlainData (dccPacket cmd len d1 d2 d3) :=
  ⟨cmd, _, rfl, hcmd⟩

theorem plainData_sendLocoFnPacket {l : Loco} {position : Nat} {prio : Bool} {data : List Byte}
    (h : sendLocoFnPacket l position prio = some data) : PlainData data := by
  unfold sendLocoFnPacket at h
  split at h
  · cases h
    exact plainData_dccPacket (by cases prio <;> decide) _ _ _ _
  split at h
  · cases h
  split at h
  · cases h
  · cases h
    exact ⟨_, _, rfl, by cases prio <;> decide⟩

theorem plainData_sendDccLocoSpeedPacket (l : Loco) (prio : Bool) :
    PlainData (sendDccLocoSpeedPacket l prio).2 := by
  unfold sendDccLocoSpeedPacket
  split
  · dsimp only
    split
    · exact plainData_dccPacket (by decide) _ _ _ _
    · exact plainData_dccPacket (by cases prio <;> decide) _ _ _ _
  · dsimp only
    split
    · exact ⟨_, _, rfl, by decide⟩
    split
    · exact ⟨_, _, rfl, by decide⟩
    · exact ⟨_, _, rfl, by cases prio <;> decide⟩

/-- A packet for the track and its place at the booster, or nothing. -/
inductive Spends (free : Byte) : Byte → List Event → Prop
  | nothing : Spends free free []
  | packet {data : List Byte} : PlainData data →
      Spends free (free - 1) [.sent (boosterPacket data)]

namespace Master

/-- The condition for a packet of the loop. -/
def MayLoop (m : Master) : Prop :=
  m.alive = true ∧ m.enabled = true ∧ m.serviceMode = false ∧ m.freePacketCount ≠ 0

/-- What the loop changes: the queue, the locomotives, the place of the refresh, and the packets
that are free. -/
structure Loops (m : Master) (r : Master × List Event) : Prop where
  rest : r.1 = { m with
    freePacketCount := r.1.freePacketCount
    lastLocoId := r.1.lastLocoId
    priority := r.1.priority
    locos := r.1.locos }
  spends : ∃ turns sent, r.2 = turns ++ sent ∧ (∀ e ∈ turns, ∃ id speed, e = .turn id speed) ∧
    Spends m.freePacketCount r.1.freePacketCount sent

theorem sendPriority_loops (m : Master) (first : Prio) (rest : List Prio) :
    Loops m (m.sendPriority first rest) := by
  unfold sendPriority
  dsimp only
  split
  · exact ⟨rfl, [], [], rfl, by simp, .nothing⟩
  · next l _ =>
    split
    · exact ⟨rfl, [], _, rfl, by simp, .packet (plainData_sendDccLocoSpeedPacket l true)⟩
    · split
      · exact ⟨rfl, [], [], rfl, by simp, .nothing⟩
      · next data hdata =>
        exact ⟨rfl, [], _, rfl, by simp, .packet (plainData_sendLocoFnPacket hdata)⟩

theorem refresh_loops (m : Master) : Loops m m.refresh := by
  unfold refresh
  split
  · exact ⟨rfl, [], [], rfl, by simp, .nothing⟩
  · next last l _ =>
    dsimp only
    split
    · exact ⟨rfl, [.turn last.toNat true], _, rfl, by simp,
        .packet (plainData_sendDccLocoSpeedPacket l false)⟩
    · split
      · exact ⟨rfl, [.turn last.toNat false], [], rfl, by simp, .nothing⟩
      · next data hdata =>
        exact ⟨rfl, [.turn last.toNat false], _, rfl, by simp,
          .packet (plainData_sendLocoFnPacket hdata)⟩

/-- The second part of `DccLoop_ProcessIO`. -/
theorem processLoop_cases (m : Master) :
    m.processLoop = (m, []) ∨ m.MayLoop ∧ Loops m m.processLoop := by
  unfold processLoop
  split
  · next hguard =>
    have hmay : m.MayLoop := by simpa [MayLoop, and_assoc] using hguard
    refine .inr ⟨hmay, ?_⟩
    split
    · exact sendPriority_loops m _ _
    · exact refresh_loops m
  · exact .inl rfl

/-! ### Service mode -/

/-- What service mode leaves alone. -/
structure SameTrack (m m' : Master) : Prop where
  alive : m'.alive = m.alive
  enabled : m'.enabled = m.enabled
  lastLocoId : m'.lastLocoId = m.lastLocoId
  numLocos : m'.numLocos = m.numLocos
  priority : m'.priority = m.priority
  locos : m'.locos = m.locos

theorem SameTrack.refl (m : Master) : SameTrack m m := ⟨rfl, rfl, rfl, rfl, rfl, rfl⟩

theorem SameTrack.trans {m m' m'' : Master} (h : SameTrack m m') (h' : SameTrack m' m'') :
    SameTrack m m'' :=
  ⟨h'.alive.trans h.alive, h'.enabled.trans h.enabled, h'.lastLocoId.trans h.lastLocoId,
    h'.numLocos.trans h.numLocos, h'.priority.trans h.priority, h'.locos.trans h.locos⟩

/-- A response, with what it says. -/
def response (m : Master) (code value : Byte) : CanPacket :=
  let cv := m.serviceModeCv + 1
  locoPacket 0xc048 m.serviceModeId
    [1, 2, 0xff, BitVec.ofInt 8 (cv / 256), BitVec.ofInt 8 cv, code, value]

/-- Service mode ends with a response. -/
inductive Responds (m : Master) : Master × List Event → Prop
  | intro {m' : Master} (code value : Byte) : SameTrack m m' →
      m'.freePacketCount = m.freePacketCount → m'.serviceMode = false →
      m'.serviceModeState = .idle → Responds m (m', [.sent (m.response code value)])

theorem isTrack_response (m : Master) (code value : Byte) :
    (m.response code value).isTrack = false := rfl

/-- An answer of the booster ends service mode, or changes the request only. -/
inductive Answers (m : Master) : Master × Option (List Event) → Prop
  | response {m' : Master} {events : List Event} : Responds m (m', events) →
      Answers m (m', some events)
  | goesOn {m' : Master} : SameTrack m m' → m'.freePacketCount = m.freePacketCount →
      m'.serviceMode = m.serviceMode → m'.serviceModeCv = m.serviceModeCv → Answers m (m', none)

/-- The request that is served is still the same. -/
structure SameRequest (m m' : Master) : Prop extends SameTrack m m' where
  freePacketCount : m'.freePacketCount = m.freePacketCount
  serviceMode : m'.serviceMode = m.serviceMode
  serviceModeCv : m'.serviceModeCv = m.serviceModeCv
  serviceModeId : m'.serviceModeId = m.serviceModeId

theorem SameRequest.refl (m : Master) : SameRequest m m := ⟨.refl m, rfl, rfl, rfl, rfl⟩

theorem SameRequest.trans {m m' m'' : Master} (h : SameRequest m m') (h' : SameRequest m' m'') :
    SameRequest m m'' :=
  ⟨h.toSameTrack.trans h'.toSameTrack, h'.freePacketCount.trans h.freePacketCount,
    h'.serviceMode.trans h.serviceMode, h'.serviceModeCv.trans h.serviceModeCv,
    h'.serviceModeId.trans h.serviceModeId⟩

theorem SameRequest.ite {m m' : Master} (h : SameRequest m m') (b : Bool) :
    SameRequest m (if b then m' else m) := by
  cases b with
  | false => exact .refl m
  | true => exact h

theorem SameRequest.goesOn {m m' : Master} (h : SameRequest m m') : Answers m (m', none) :=
  .goesOn h.toSameTrack h.freePacketCount h.serviceMode h.serviceModeCv

theorem bitRead_same (m : Master) : SameRequest m m.bitRead := by
  unfold bitRead
  dsimp only
  split <;> exact ⟨⟨rfl, rfl, rfl, rfl, rfl, rfl⟩, rfl, rfl, rfl, rfl⟩

/-- A response in a state that has the variable and the locomotive of `m`. -/
theorem SameRequest.responds {m m' : Master} (h : SameRequest m m') (code value : Byte) :
    Responds m (m'.sendServiceModeResponse code value) := by
  have hresponse : m'.response code value = m.response code value := by
    rw [response, response, h.serviceModeCv, h.serviceModeId]
  unfold sendServiceModeResponse
  change Responds m (_, [.sent (m'.response code value)])
  rw [hresponse]
  exact .intro code value ⟨h.alive, h.enabled, h.lastLocoId, h.numLocos, h.priority, h.locos⟩
    h.freePacketCount rfl rfl

theorem SameRequest.answers {m m' : Master} (h : SameRequest m m') (code value : Byte) :
    Answers m ((m'.sendServiceModeResponse code value).map id some) :=
  .response (h.responds code value)

theorem serviceAnswer_answers (m : Master) : Answers m m.serviceAnswer := by
  unfold serviceAnswer
  dsimp only
  split
  · obtain ⟨m', hm', hsame⟩ : ∃ m', (if m.serviceModeHadAck then
        { m with serviceModeState := .enterReset, serviceModeRequest := .verify } else m) = m' ∧
        SameRequest m m' := by
      refine ⟨_, rfl, SameRequest.ite ?_ _⟩
      exact ⟨⟨rfl, rfl, rfl, rfl, rfl, rfl⟩, rfl, rfl, rfl, rfl⟩
    rw [hm']
    split
    · exact hsame.answers _ _
    · exact hsame.goesOn
  · split
    · exact (SameRequest.refl m).answers _ _
    split
    · split
      · refine SameRequest.answers ?_ _ _
        exact ⟨⟨rfl, rfl, rfl, rfl, rfl, rfl⟩, rfl, rfl, rfl, rfl⟩
      · exact .goesOn ⟨rfl, rfl, rfl, rfl, rfl, rfl⟩ rfl rfl rfl
    · exact (SameRequest.refl m).goesOn
  · obtain ⟨m', hm', hsame⟩ : ∃ m', (if m.serviceModeHadAck then m.bitRead else m) = m' ∧
        SameRequest m m' := ⟨_, rfl, m.bitRead_same.ite _⟩
    rw [hm']
    split
    · split
      · split
        · refine SameRequest.answers (hsame.trans ?_) _ _
          exact ⟨⟨rfl, rfl, rfl, rfl, rfl, rfl⟩, rfl, rfl, rfl, rfl⟩
        · refine SameRequest.goesOn (hsame.trans ?_)
          exact ⟨⟨rfl, rfl, rfl, rfl, rfl, rfl⟩, rfl, rfl, rfl, rfl⟩
      · refine SameRequest.goesOn (hsame.trans ?_)
        exact ⟨⟨rfl, rfl, rfl, rfl, rfl, rfl⟩, rfl, rfl, rfl, rfl⟩
    · exact hsame.goesOn
  · exact (SameRequest.refl m).goesOn

theorem isTrack_servicePacket {instruction : Byte} {cv : Int} {value : Byte} :
    (boosterPacket (servicePacket instruction cv value)).isTrack = true := by
  change (slaveSid == slaveSid && !dccServiceMode5xWithAckCmd.getLsbD 0) = true
  decide

/-- The next packet of service mode, or a response where the request is wrong. -/
inductive Serves (m : Master) : Master × List Event → Prop
  | response {r : Master × List Event} : Responds m r → Serves m r
  | waits : Serves m (m, [])
  | packet {m' : Master} {data : List Byte} : SameTrack m m' →
      m'.freePacketCount = m.freePacketCount - 1 → m'.serviceMode = m.serviceMode →
      (boosterPacket data).isTrack = true → Serves m (m', [.sent (boosterPacket data)])

theorem serviceSend_serves (m : Master) : Serves m m.serviceSend := by
  unfold serviceSend
  cases m.serviceModeState with
  | idle | waitWrite2 | waitVerify2 | waitReadbit => exact .waits
  | request =>
    dsimp only
    split
    · exact .response ((SameRequest.refl m).responds _ _)
    split
    · exact .response ((SameRequest.refl m).responds _ _)
    · exact .packet ⟨rfl, rfl, rfl, rfl, rfl, rfl⟩ rfl rfl rfl
  | enterReset =>
    dsimp only
    split <;> exact .packet ⟨rfl, rfl, rfl, rfl, rfl, rfl⟩ rfl rfl rfl
  | sendWrite | verify | sendReadBits =>
    exact .packet ⟨rfl, rfl, rfl, rfl, rfl, rfl⟩ rfl rfl isTrack_servicePacket
  | enterIdle | enterResetPre | exitReset | waitWrite | waitVerify | waitRead =>
    exact .packet ⟨rfl, rfl, rfl, rfl, rfl, rfl⟩ rfl rfl rfl

/-! ### Reactions -/

/-- What a packet from the bus tells the master. -/
def hear (m : Master) (p : CanPacket) : Master × List Event :=
  if p.sid = masterSid ∧ 0 < p.len then m.handlePacketToMaster p else (m, [])

/-- The table of locomotives and the place of the refresh stay as they are. -/
structure SameLocos (m m' : Master) : Prop where
  lastLocoId : m'.lastLocoId = m.lastLocoId
  numLocos : m'.numLocos = m.numLocos
  locos : m'.locos = m.locos

theorem SameLocos.refl (m : Master) : SameLocos m m := ⟨rfl, rfl, rfl⟩

theorem SameTrack.sameLocos {m m' : Master} (h : SameTrack m m') : SameLocos m m' :=
  ⟨h.lastLocoId, h.numLocos, h.locos⟩

theorem hear_same (m : Master) (p : CanPacket) :
    SameLocos m (m.hear p).1 ∧ ∀ e ∈ (m.hear p).2, e.isQuiet = true := by
  unfold hear
  split
  · unfold handlePacketToMaster
    split
    · exact ⟨⟨rfl, rfl, rfl⟩, fun e he => List.mem_singleton.mp he ▸ rfl⟩
    repeat' split
    all_goals exact ⟨⟨rfl, rfl, rfl⟩, quiet_nil⟩
  · exact ⟨.refl m, quiet_nil⟩

theorem handleServiceRequest_same (m : Master) (p : CanPacket) :
    SameTrack m (m.handleServiceRequest p) := by
  unfold handleServiceRequest
  split
  · dsimp only
    split
    · exact ⟨rfl, rfl, rfl, rfl, rfl, rfl⟩
    · split <;> exact ⟨rfl, rfl, rfl, rfl, rfl, rfl⟩
  · exact .refl m

theorem Responds.same {m : Master} {r : Master × List Event} (h : Responds m r) :
    SameTrack m r.1 ∧ ∀ e ∈ r.2, ∃ p, e = .sent p := by
  obtain ⟨code, value, hsame, -, -, -⟩ := h
  exact ⟨hsame, fun e he => ⟨_, List.mem_singleton.mp he⟩⟩

/-- Service mode sends packets, but is no business of the locomotives. -/
theorem handleServiceMode_same (m : Master) :
    SameTrack m m.handleServiceMode.1 ∧ ∀ e ∈ m.handleServiceMode.2, ∃ p, e = .sent p := by
  have hanswers := m.serviceAnswer_answers
  unfold handleServiceMode
  generalize m.serviceAnswer = a at hanswers ⊢
  cases hanswers with
  | response hresponds => exact hresponds.same
  | @goesOn m' hsame _ _ _ =>
    dsimp only
    split
    · exact ⟨hsame, fun e he => by cases he⟩
    · have hserves := m'.serviceSend_serves
      generalize m'.serviceSend = r at hserves ⊢
      cases hserves with
      | response hresponds => exact ⟨hsame.trans hresponds.same.1, hresponds.same.2⟩
      | waits => exact ⟨hsame, fun e he => by cases he⟩
      | packet hsame' =>
        exact ⟨hsame.trans hsame', fun e he => ⟨_, List.mem_singleton.mp he⟩⟩

theorem handlePacket_eq (db : List ConstLoco) (m : Master) (p : CanPacket) :
    m.handlePacket db p =
      ((m.hear p).1.handleSet db p).bind fun set => (set.1.handleQuery db p).bind fun asked =>
        some (set.1.handleServiceRequest p, (m.hear p).2 ++ handlePower p ++ set.2 ++ asked) :=
  rfl

section Reactions

variable {σ : Type*} {tr : σ → Event → σ → Prop} {R : Master → σ → Prop}
  {Heard : CanPacket → Master → σ → Prop}

/-- The parts of a reaction conform.  `Heard` tells for which states of the master a state of the
system stands while a packet from the bus is looked at. -/
structure Parts (tr : σ → Event → σ → Prop) (R : Master → σ → Prop)
    (Heard : CanPacket → Master → σ → Prop) : Prop where
  hear : ∀ m p s, R m s →
    ∃ u, Steps tr s (.received p :: (m.hear p).2) u ∧ Heard p (m.hear p).1 u
  calmHeard : ∀ p m r, Calm m r → Conforms tr (Heard p) m r
  request : ∀ p m s, Heard p m s → R (m.handleServiceRequest p) s
  calm : ∀ m r, Calm m r → Conforms tr R m r
  service : ∀ m, m.alive = true → m.enabled = true → m.serviceMode = true →
    Conforms tr R m m.handleServiceMode
  loop : ∀ m, Conforms tr R m m.processLoop

theorem Parts.processIO (h : Parts tr R Heard) (m : Master) : Conforms tr R m m.processIO := by
  have hservice : Conforms tr R m m.processService := by
    unfold processService
    split
    · next hguard =>
      simp only [Bool.and_eq_true] at hguard
      exact h.service m hguard.1.1 hguard.1.2 hguard.2
    · exact h.calm m _ (calm_refl m)
  exact hservice.append (h.loop _)

theorem Parts.handlePacket (h : Parts tr R Heard) {db : List ConstLoco} {m : Master} {p : CanPacket}
    {r : Master × List Event} (hr : m.handlePacket db p = some r) :
    Conforms tr R m (r.1, .received p :: r.2) := by
  intro s hs
  obtain ⟨t, hst, ht⟩ := h.hear m p s hs
  rw [handlePacket_eq] at hr
  generalize m.hear p = heard at hr hst ht
  obtain ⟨set, hset, hr⟩ := Option.bind_eq_some_iff.mp hr
  obtain ⟨asked, hasked, hr⟩ := Option.bind_eq_some_iff.mp hr
  obtain rfl := Option.some.inj hr
  have hpower := h.calmHeard p heard.1 _ (calm_of_quiet _ (quiet_handlePower p))
  have hset' := h.calmHeard p heard.1 _ (calm_handleSet hset)
  have hquery := h.calmHeard p set.1 _ (calm_of_quiet _ (quiet_handleQuery hasked))
  obtain ⟨u, htu, hu⟩ := ((hpower.append hset').append hquery) t ht
  refine ⟨u, ?_, h.request p _ u hu⟩
  have hall := hst.append htu
  simp only [List.cons_append, ← List.append_assoc] at hall
  exact hall

theorem Parts.react (h : Parts tr R Heard) {db : List ConstLoco} {m : Master} {input : Input}
    {r : Master × List Event} (hr : react db m input = some r) : Conforms tr R m r := by
  cases input with
  | packet p =>
    obtain ⟨handled, hhandled, hr⟩ := Option.bind_eq_some_iff.mp hr
    obtain rfl := Option.some.inj hr
    exact ((h.handlePacket hhandled).append (h.processIO handled.1)).append (h.processIO _)
  | setLocoPaused id isPaused =>
    cases hr
    exact h.calm m _ (m.calm_setLocoPaused id isPaused)
  | setLocoFn id fn value =>
    cases hr
    exact h.calm m _ (m.calm_setLocoFn id fn value)
  | setLocoAbsoluteSpeed id absSpeed =>
    cases hr
    exact h.calm m _ (m.calm_setLocoAbsoluteSpeed id absSpeed)
  | setLocoRelativeSpeed id relSpeed =>
    cases hr
    exact h.calm m _ (m.calm_setLocoRelativeSpeed id relSpeed)
  | setLocoReversed id isReversed => exact h.calm m _ (calm_setLocoReversed hr)
  | emergencyStop =>
    cases hr
    exact h.calm m _ (calm_of_quiet m fun e he => List.mem_singleton.mp he ▸ rfl)

/-- If the parts conform, the log of a run is a trace of the system. -/
theorem Parts.steps (h : Parts tr R Heard) {db : List ConstLoco} {s : σ} (hs : R (init db) s)
    {inputs : List Input} {m : Master} {log : List Event}
    (hrun : Trace.run (step db) (init db, []) inputs = some (m, log)) :
    ∃ u, Steps tr s log u ∧ R m u :=
  steps_of_run (fun _ _ _ => h.react) hs hrun

/-- An invariant of the table of locomotives. -/
theorem parts_of_invariant {I : Master → Prop} (calm : ∀ m r, Calm m r → I m → I r.1)
    (same : ∀ m m', SameLocos m m' → I m → I m') (loop : ∀ m, I m → I m.processLoop.1) :
    Parts (fun (_ : Unit) _ _ => True) (fun m _ => I m) fun _ m _ => I m := by
  have hsteps : ∀ events : List Event, Steps (fun (_ : Unit) _ _ => True) () events () :=
    fun events => steps_refl fun _ _ => trivial
  constructor
  case hear => exact fun m p _ hm => ⟨(), hsteps _, same m _ (hear_same m p).1 hm⟩
  case calmHeard => exact fun _ m r hcalm _ hm => ⟨(), hsteps _, calm m r hcalm hm⟩
  case request => exact fun p m _ hm => same m _ (handleServiceRequest_same m p).sameLocos hm
  case calm => exact fun m r hcalm _ hm => ⟨(), hsteps _, calm m r hcalm hm⟩
  case service =>
    exact fun m _ _ _ _ hm => ⟨(), hsteps _, same m _ (handleServiceMode_same m).1.sameLocos hm⟩
  case loop => exact fun m _ hm => ⟨(), hsteps _, loop m hm⟩

end Reactions

end Master

end OpenmrnCue.DccMaster
