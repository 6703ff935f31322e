import OpenmrnCue.DccMaster.Steps

/-! The programming track.  In every run a response answers a request that had no response yet, and
a response that tells of success has the value of which the decoder has acknowledged that the
variable has it: the last packet to which an acknowledgement is wanted asks for just this value of
just this variable, and one has come since. -/

namespace OpenmrnCue.DccMaster

open Conformance

/-- A packet to the track to which an acknowledgement is wanted. -/
def CanPacket.asks (p : CanPacket) : Bool := p.isTrack && (p.d 0).getLsbD 4

/-- A request to read or write a variable. -/
def CanPacket.isRequest (p : CanPacket) : Prop :=
  p.sid = 0xc048 ∧ 5 ≤ p.len ∧ p.d 0 = 1 ∧ p.d 1 = 2 ∧ p.d 2 = 0xff

instance (p : CanPacket) : Decidable p.isRequest := inferInstanceAs (Decidable (_ ∧ _))

/-- The booster has seen an acknowledgement. -/
def CanPacket.isAck (p : CanPacket) : Prop := (p.sid = masterSid ∧ 0 < p.len) ∧ p.d 0 = cmdAck

instance (p : CanPacket) : Decidable p.isAck := inferInstanceAs (Decidable (_ ∧ _))

/-- The programming track as seen from the bus: whether a request has no response yet, what the
decoder was asked last, and whether it has acknowledged since. -/
structure ProgrammingTrack where
  pending : Bool
  asked : Option (List Byte)
  acked : Bool

namespace ProgrammingTrack

def after (t : ProgrammingTrack) : Event → ProgrammingTrack
  | .received p =>
    { t with
      pending := t.pending || decide p.isRequest
      acked := t.acked || decide p.isAck }
  | .sent p =>
    if p.isResponse then { t with pending := false }
    else if p.asks then { t with asked := some p.data, acked := false }
    else t
  | .turn _ _ => t

/-- The packet that asks the decoder to verify that a variable has a value. -/
def verifyPacket (cv : Int) (value : Byte) : List Byte :=
  Master.servicePacket 0b01110100 cv value

/-- The decoder has acknowledged what a response says of a variable, of which the number is one more
on the bus. -/
def Proves (t : ProgrammingTrack) (p : CanPacket) : Prop :=
  t.acked = true ∧ ∃ cv value, t.asked = some (verifyPacket cv value) ∧
    p.data = [1, 2, 0xff, BitVec.ofInt 8 ((cv + 1) / 256), BitVec.ofInt 8 (cv + 1), dccSuccess,
      value]

/-- A response has a request, and a proof if it tells of success. -/
def Step (t : ProgrammingTrack) (e : Event) (t' : ProgrammingTrack) : Prop :=
  (∀ p, e = .sent p → p.isResponse = true →
    t.pending = true ∧ (p.d 5 = dccSuccess → t.Proves p)) ∧ t' = t.after e

end ProgrammingTrack

/-- What a master in service mode knows of the programming track. -/
structure Programs (m : Master) (t : ProgrammingTrack) : Prop where
  pending : m.serviceMode = true → t.pending = true
  asked : m.serviceModeState = .waitVerify ∨ m.serviceModeState = .waitVerify2 →
    t.asked = some (ProgrammingTrack.verifyPacket m.serviceModeCv m.serviceModeValue) ∧
      (m.serviceModeHadAck = true → t.acked = true)

/-- The same while a packet is looked at. -/
def Hears (p : CanPacket) (m : Master) (t : ProgrammingTrack) : Prop :=
  Programs m t ∧ (p.isRequest → t.pending = true)

/-- The parts of the state that service mode has for itself. -/
def Master.servicePart (m : Master) : Bool × WriteState × Int × Byte × Bool :=
  (m.serviceMode, m.serviceModeState, m.serviceModeCv, m.serviceModeValue, m.serviceModeHadAck)

theorem Programs.congr {m m' : Master} {t : ProgrammingTrack} (h : Programs m t)
    (hsame : m'.servicePart = m.servicePart) : Programs m' t := by
  simp only [Master.servicePart, Prod.mk.injEq] at hsame
  obtain ⟨hmode, hstate, hcv, hvalue, hack⟩ := hsame
  refine ⟨fun h' => h.pending (hmode ▸ h'), fun h' => ?_⟩
  rw [hcv, hvalue, hack]
  exact h.asked (hstate ▸ h')

/-- What is no response and asks for nothing goes unnoticed. -/
theorem step_of_plain {t : ProgrammingTrack} {e : Event} (hreceived : ∀ p, e ≠ .received p)
    (hplain : ∀ p, e = .sent p → p.isResponse = false ∧ p.asks = false) :
    ProgrammingTrack.Step t e t := by
  cases e with
  | received p => exact absurd rfl (hreceived p)
  | turn id speed =>
    refine ⟨fun p hp => ?_, rfl⟩
    cases hp
  | sent p =>
    obtain ⟨hresponse, hasks⟩ := hplain p rfl
    refine ⟨fun p' hp' hresponse' => ?_, ?_⟩
    · cases hp'
      rw [hresponse] at hresponse'
      cases hresponse'
    · rw [ProgrammingTrack.after, hresponse, hasks]
      rfl

theorem step_of_quiet {t : ProgrammingTrack} {e : Event} (h : e.isQuiet = true) :
    ProgrammingTrack.Step t e t := by
  refine step_of_plain (fun p hp => ?_) fun p hp => ?_
  · rw [hp] at h
    cases h
  · rw [hp] at h
    simp only [Event.isQuiet, Bool.and_eq_true, Bool.not_eq_true'] at h
    refine ⟨h.2, ?_⟩
    rw [CanPacket.asks, h.1]
    rfl

/-! ### Packets from the bus -/

theorem hear_programs (m : Master) (p : CanPacket) {t : ProgrammingTrack} (h : Programs m t) :
    ∃ u, Steps ProgrammingTrack.Step t (.received p :: (m.hear p).2) u ∧
      Hears p (m.hear p).1 u := by
  have hquiet := (m.hear_same p).2
  have hsame : (m.hear p).1.servicePart = m.servicePart ∨
      p.isAck ∧ (m.hear p).1.servicePart = { m with serviceModeHadAck := true }.servicePart := by
    unfold Master.hear
    split
    · next hp =>
      unfold Master.handlePacketToMaster
      split
      · exact .inl rfl
      split
      · next hack => exact .inr ⟨⟨hp, hack⟩, rfl⟩
      repeat' split
      all_goals exact .inl rfl
    · exact .inl rfl
  refine ⟨t.after (.received p), .cons ⟨fun _ hsent => ?_, rfl⟩ (steps_refl fun e he =>
    step_of_quiet (hquiet e he)), ?_, fun hrequest => ?_⟩
  · cases hsent
  · have hbefore : Programs m (t.after (.received p)) := by
      refine ⟨fun hmode => ?_, fun hstate => ?_⟩
      · simp only [ProgrammingTrack.after, h.pending hmode, Bool.true_or]
      · obtain ⟨hasked, hacked⟩ := h.asked hstate
        refine ⟨hasked, fun hack => ?_⟩
        simp only [ProgrammingTrack.after, hacked hack, Bool.true_or]
    rcases hsame with hsame | ⟨hack, hsame⟩
    · exact hbefore.congr hsame
    · have hheard : Programs { m with serviceModeHadAck := true } (t.after (.received p)) := by
        refine ⟨hbefore.pending, fun hstate => ⟨(hbefore.asked hstate).1, fun _ => ?_⟩⟩
        simp only [ProgrammingTrack.after, decide_eq_true hack, Bool.or_true]
      exact hheard.congr hsame
  · simp only [ProgrammingTrack.after, decide_eq_true hrequest, Bool.or_true]

theorem handleServiceRequest_programs (m : Master) (p : CanPacket) {t : ProgrammingTrack}
    (h : Hears p m t) : Programs (m.handleServiceRequest p) t := by
  unfold Master.handleServiceRequest
  split
  · next hrequest =>
    have hfresh : ∀ m' : Master, m'.serviceModeState = .request → Programs m' t := by
      refine fun m' hstate => ⟨fun _ => h.2 hrequest, fun hverify => ?_⟩
      rw [hstate] at hverify
      rcases hverify with h | h <;> cases h
    dsimp only
    split
    · exact hfresh _ rfl
    · split <;> exact hfresh _ rfl
  · exact h.1

theorem calm_programs {m : Master} {r : Master × List Event} (h : m.Calm r) :
    Conforms ProgrammingTrack.Step Programs m r := by
  refine conforms_of_same (fun t ht => ht.congr ?_) fun t _ e he => step_of_quiet (h.quiet e he)
  rw [h.rest]
  rfl

theorem calm_hears {m : Master} {r : Master × List Event} (h : m.Calm r) (p : CanPacket) :
    Conforms ProgrammingTrack.Step (Hears p) m r := by
  refine conforms_of_same (fun t ht => ⟨ht.1.congr ?_, ht.2⟩) fun t _ e he =>
    step_of_quiet (h.quiet e he)
  rw [h.rest]
  rfl

/-! ### The loop -/

theorem plain_boosterPacket {data : List Byte} (h : PlainData data) :
    (boosterPacket data).isResponse = false ∧ (boosterPacket data).asks = false := by
  obtain ⟨cmd, rest, rfl, -, hcmd⟩ := h
  refine ⟨rfl, ?_⟩
  change (_ && cmd.getLsbD 4) = false
  rw [hcmd, Bool.and_false]

theorem processLoop_programs (m : Master) :
    Conforms ProgrammingTrack.Step Programs m m.processLoop := by
  rcases m.processLoop_cases with h | ⟨-, hrest, turns, sent, hevents, hturns, hspends⟩
  · rw [h]
    exact calm_programs (Master.calm_refl m)
  · generalize m.processLoop = r at hrest hevents hspends
    have hplain : ∀ e ∈ r.2, (∀ p, e ≠ .received p) ∧
        ∀ p, e = .sent p → p.isResponse = false ∧ p.asks = false := by
      intro e he
      rw [hevents] at he
      rcases List.mem_append.mp he with he | he
      · obtain ⟨id, speed, rfl⟩ := hturns e he
        exact ⟨fun _ => Event.noConfusion, fun _ => Event.noConfusion⟩
      · obtain ⟨m', events⟩ := r
        dsimp only at hspends
        generalize m'.freePacketCount = free at hspends
        cases hspends with
        | nothing => cases he
        | packet hdata =>
          rw [List.mem_singleton.mp he]
          refine ⟨fun _ => Event.noConfusion, fun p hp => ?_⟩
          cases hp
          exact plain_boosterPacket hdata
    refine conforms_of_same (fun t ht => ht.congr ?_) fun t _ e he =>
      step_of_plain (hplain e he).1 (hplain e he).2
    rw [hrest]
    rfl

/-! ### Service mode -/

/-- A response ends service mode. -/
theorem respond_programs (m : Master) {t : ProgrammingTrack} (hpending : t.pending = true)
    {code value : Byte} (hproof : code = dccSuccess → t.acked = true ∧
      t.asked = some (ProgrammingTrack.verifyPacket m.serviceModeCv value)) :
    ∃ u, Steps ProgrammingTrack.Step t (m.sendServiceModeResponse code value).2 u ∧
      Programs (m.sendServiceModeResponse code value).1 u := by
  refine ⟨_, .single ⟨fun p hp _ => ⟨hpending, fun hcode => ?_⟩, rfl⟩, ?_⟩
  · cases hp
    obtain ⟨hacked, hasked⟩ := hproof hcode
    refine ⟨hacked, m.serviceModeCv, value, hasked, ?_⟩
    change [1, 2, 0xff, _, _, code, value] = _
    rw [show code = dccSuccess from hcode]
  · refine ⟨fun hmode => ?_, fun hstate => ?_⟩
    · cases hmode
    · rcases hstate with h | h <;> cases h

/-- The answer of the booster ends service mode or changes what is done next; a success comes from
an acknowledgement in the state that waits for it. -/
theorem serviceAnswer_cases (m : Master) :
    (∃ (m' : Master) (code value : Byte),
        m.serviceAnswer = (m'.sendServiceModeResponse code value).map id some ∧
        (code = dccSuccess → m' = m ∧ value = m.serviceModeValue ∧
          m.serviceModeState = .waitVerify2 ∧ m.serviceModeHadAck = true)) ∨
      ∃ m' : Master, m.serviceAnswer = (m', none) ∧ m'.serviceMode = m.serviceMode ∧
        (m'.serviceModeState = .waitVerify ∨ m'.serviceModeState = .waitVerify2 → m' = m) := by
  have hnoack : dccErrNoack ≠ dccSuccess := by decide
  unfold Master.serviceAnswer
  dsimp only
  split
  · next hstate =>
    split
    · exact .inl ⟨_, dccErrNoack, 0, rfl, fun h => absurd h hnoack⟩
    · refine .inr ⟨_, rfl, ?_, fun h => ?_⟩
      · split <;> rfl
      · split
        · next hack =>
          rw [if_pos hack] at h
          rcases h with h | h <;> cases h
        · rfl
  · next hstate =>
    split
    · next hack =>
      exact .inl ⟨m, dccSuccess, m.serviceModeValue, rfl, fun _ => ⟨rfl, rfl, hstate, hack⟩⟩
    split
    · split
      · exact .inl ⟨_, dccErrNoack, 0, rfl, fun h => absurd h hnoack⟩
      · refine .inr ⟨_, rfl, rfl, fun h => ?_⟩
        rcases h with h | h <;> cases h
    · exact .inr ⟨m, rfl, rfl, fun _ => rfl⟩
  · next hstate =>
    have hread : (if m.serviceModeHadAck then m.bitRead else m).serviceMode = m.serviceMode ∧
        ¬((if m.serviceModeHadAck then m.bitRead else m).serviceModeState = .waitVerify ∨
          (if m.serviceModeHadAck then m.bitRead else m).serviceModeState = .waitVerify2) := by
      split
      · refine ⟨(Master.bitRead_same m).serviceMode, ?_⟩
        unfold Master.bitRead
        dsimp only
        split <;> simp
      · simp [hstate]
    generalize (if m.serviceModeHadAck then m.bitRead else m) = m' at hread
    split
    · split
      · split
        · exact .inl ⟨_, dccErrNoack, 0, rfl, fun h => absurd h hnoack⟩
        · refine .inr ⟨_, rfl, hread.1, fun h => ?_⟩
          rcases h with h | h <;> cases h
      · refine .inr ⟨_, rfl, hread.1, fun h => ?_⟩
        rcases h with h | h <;> cases h
    · exact .inr ⟨m', rfl, hread.1, fun h => absurd h hread.2⟩
  · exact .inr ⟨m, rfl, rfl, fun _ => rfl⟩

theorem after_servicePacket (t : ProgrammingTrack) (instruction : Byte) (cv : Int) (value : Byte) :
    t.after (.sent (boosterPacket (Master.servicePacket instruction cv value))) =
      { t with asked := some (Master.servicePacket instruction cv value), acked := false } := by
  have hasks : (boosterPacket (Master.servicePacket instruction cv value)).asks = true := by
    change (_ && dccServiceMode5xWithAckCmd.getLsbD 4) = true
    rw [Master.isTrack_servicePacket]
    decide
  have hresponse : (boosterPacket (Master.servicePacket instruction cv value)).isResponse = false :=
    rfl
  unfold ProgrammingTrack.after
  dsimp only
  rw [hresponse, hasks]
  rfl

/-- A packet behind which the state waits for no acknowledgement of a value. -/
theorem send_programs {m m' : Master} {data : List Byte} (hmode : m'.serviceMode = m.serviceMode)
    (hstate : ¬(m'.serviceModeState = .waitVerify ∨ m'.serviceModeState = .waitVerify2)) :
    Conforms ProgrammingTrack.Step Programs m (m', [.sent (boosterPacket data)]) := by
  refine conforms_of_event fun t ht => ⟨_, ⟨fun p hp hresponse => ?_, rfl⟩, ?_, ?_⟩
  · cases hp
    cases hresponse
  · intro h
    have hpending := ht.pending (hmode ▸ h)
    unfold ProgrammingTrack.after
    change (if (boosterPacket data).asks = true then _ else t).pending = true
    split <;> exact hpending
  · exact fun h => absurd h hstate

theorem serviceSend_programs {m : Master} (hmode : m.serviceMode = true) :
    Conforms ProgrammingTrack.Step Programs m m.serviceSend := by
  have herr : ∀ code : Byte, code ≠ dccSuccess → Conforms ProgrammingTrack.Step Programs m
      (m.sendServiceModeResponse code 0) := by
    intro code hcode t ht
    exact respond_programs m (ht.pending hmode) fun h => absurd h hcode
  unfold Master.serviceSend
  cases hstate : m.serviceModeState with
  | idle | waitWrite2 | waitVerify2 | waitReadbit => exact calm_programs (Master.calm_refl m)
  | request =>
    dsimp only
    split
    · exact herr dccErrId (by decide)
    split
    · exact herr dccErrServiceNotDcc (by decide)
    · exact send_programs rfl (by rintro (h | h) <;> cases h)
  | enterReset =>
    dsimp only
    split <;> exact send_programs rfl (by rintro (h | h) <;> cases h)
  | sendWrite | sendReadBits | enterIdle | enterResetPre | exitReset | waitWrite | waitRead =>
    exact send_programs rfl (by rintro (h | h) <;> cases h)
  | verify =>
    refine conforms_of_event fun t ht => ⟨_, ⟨fun p hp hresponse => ?_, rfl⟩, ?_, fun _ => ?_⟩
    · cases hp
      cases hresponse
    · rw [after_servicePacket]
      exact fun _ => ht.pending hmode
    · rw [after_servicePacket]
      exact ⟨rfl, fun h => by cases h⟩
  | waitVerify =>
    refine conforms_of_event fun t ht => ⟨t, step_of_plain (fun _ => Event.noConfusion) ?_, ?_⟩
    · intro p hp
      cases hp
      exact plain_boosterPacket (plainData_dccPacket (by decide) _ _ _ _)
    · exact ⟨ht.pending, fun _ => ht.asked (.inl hstate)⟩

theorem handleServiceMode_programs {m : Master} (hmode : m.serviceMode = true) :
    Conforms ProgrammingTrack.Step Programs m m.handleServiceMode := by
  unfold Master.handleServiceMode
  rcases serviceAnswer_cases m with ⟨m', code, value, hanswer, hsuccess⟩ |
    ⟨m', hanswer, hmode', hverify⟩
  · rw [hanswer]
    intro t ht
    refine respond_programs m' (ht.pending hmode) fun hcode => ?_
    obtain ⟨rfl, rfl, hstate, hack⟩ := hsuccess hcode
    obtain ⟨hasked, hacked⟩ := ht.asked (.inr hstate)
    exact ⟨hacked hack, hasked⟩
  · rw [hanswer]
    have hgoes : Conforms ProgrammingTrack.Step Programs m (m', []) := by
      refine conforms_of_same (fun t ht => ⟨fun h => ht.pending (hmode' ▸ h), fun h => ?_⟩)
        fun _ _ e he => by cases he
      obtain rfl := hverify h
      exact ht.asked h
    dsimp only
    split
    · exact hgoes
    · exact hgoes.append (q := m'.serviceSend) (serviceSend_programs (hmode'.trans hmode))

theorem parts_program : Master.Parts ProgrammingTrack.Step Programs Hears where
  hear m p _ h := hear_programs m p h
  calmHeard p _ _ h := calm_hears h p
  request p m _ h := handleServiceRequest_programs m p h
  calm _ _ h := calm_programs h
  service _ _ _ hmode := handleServiceMode_programs hmode
  loop := processLoop_programs

/-- A request to verify that variable 5 has the value 42, an acknowledgement that comes too early,
and one that counts. -/
def sampleVerify : List Input :=
  let acknowledged : Input := .packet ⟨masterSid, 0, 1, [cmdAck, 0, 0, 0, 0, 0, 0, 0]⟩
  [keepalive 9, .packet ⟨0xc048, 0x0100, 7, [1, 2, 0xff, 0, 5, 1, 42, 0]⟩, acknowledged,
    keepalive 9, keepalive 9, acknowledged]

end OpenmrnCue.DccMaster
