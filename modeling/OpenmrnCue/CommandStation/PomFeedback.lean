import OpenmrnCue.CommandStation.ProgrammingTrackFrontend

/-! What railcom reports while a packet for the main track is waited for: `railcom_feedback` of
`ProgrammingTrackFrontend.hxx`.  The parser of the railcom data is not part of the repository and is
given. -/

namespace OpenmrnCue.CommandStation

/-- `dcc::Feedback`, as far as `railcom_feedback` reads it. -/
structure KeyedFeedback where
  feedbackKey : Nat
  channel : Nat
  ch2Size : Nat
  ch2Data : List Nat
deriving DecidableEq, Repr

/-- `dcc::RailcomPacket::type`, as far as `railcom_feedback` tells the types apart. -/
inductive RailcomPacketType where
  | busy
  | nack
  | ack
  | mobPom
  | garbage
  | other
deriving DecidableEq, Repr

/-- `dcc::RailcomPacket`. -/
structure RailcomPacket where
  railcomChannel : Nat
  type : RailcomPacketType
  argument : Nat
deriving DecidableEq, Repr

/-- The feedback key of the frontend, and `dcc::parse_railcom_data`. -/
structure RailcomReader where
  self : Nat
  parseRailcomData : KeyedFeedback → List RailcomPacket

/-- What the frontend keeps of the feedbacks: `errorCode_`, `seenRailcomBusy_`,
`seenRailcomGarbage_` and `cvData_`. -/
structure PomStatus where
  errorCode : RailcomStatusCode
  seenRailcomBusy : Bool
  seenRailcomGarbage : Bool
  cvData : Nat
deriving DecidableEq, Repr

namespace PomStatus

variable (reader : RailcomReader)

/-- The status when a packet is sent.  `cvData` is read after a MOB_POM answer only. -/
def start : PomStatus := ⟨.pending, false, false, 0⟩

/-- `record_railcom_status`. -/
def record (s : PomStatus) (code : RailcomStatusCode) : PomStatus :=
  { s with errorCode := code }

/-- The body of the loop over the packets, with `new_status`. -/
def readPacket (s : PomStatus × RailcomStatusCode) (e : RailcomPacket) :
    PomStatus × RailcomStatusCode :=
  if e.railcomChannel ≠ 2 then s
  else
    match e.type with
    | .busy => ({ s.1 with seenRailcomBusy := true }, s.2)
    | .nack | .ack => s
    | .mobPom => ({ s.1 with cvData := e.argument }, .ok)
    | .garbage | .other => ({ s.1 with seenRailcomGarbage := true }, s.2)

/-- `railcom_feedback`. -/
def railcomFeedback (s : PomStatus) (f : KeyedFeedback) : PomStatus :=
  if s.errorCode ≠ .pending then s
  else if f.feedbackKey ≠ reader.self then
    if s.seenRailcomBusy ∧ s.errorCode = .pending then s.record .busy else s
  else if f.channel = 0xff then s
  else if f.ch2Size = 0 then s
  else
    let (s, newStatus) := (reader.parseRailcomData f).foldl readPacket (s, .pending)
    if newStatus = .pending then s else s.record newStatus

/-- The status when the feedbacks of a packet have come. -/
def after (s : PomStatus) (feedbacks : List KeyedFeedback) : PomStatus :=
  feedbacks.foldl (railcomFeedback reader) s

/-- What the flow is told when it has waited for a packet. -/
def answer (s : PomStatus) : FrontendAnswer :=
  ⟨false, false, s.errorCode, s.seenRailcomBusy, s.seenRailcomGarbage, s.cvData⟩

end PomStatus

namespace RailcomReader

variable (reader : RailcomReader)

/-- A feedback for another packet. -/
def Foreign (f : KeyedFeedback) : Prop := f.feedbackKey ≠ reader.self

/-- A feedback for the packet of the frontend, with an answer of this type in channel 2. -/
def Answers (type : RailcomPacketType) (f : KeyedFeedback) : Prop :=
  f.feedbackKey = reader.self ∧ f.channel ≠ 0xff ∧ f.ch2Size ≠ 0 ∧
    ∃ e ∈ reader.parseRailcomData f, e.railcomChannel = 2 ∧ e.type = type

/-- The decoder was busy, and did not answer otherwise. -/
def BusyOnly (feedbacks : List KeyedFeedback) : Prop :=
  (∃ f ∈ feedbacks, reader.Answers .busy f) ∧ ∀ f ∈ feedbacks, ¬reader.Answers .mobPom f

/-- A feedback for another packet comes when the decoder has only been busy so far. -/
def Interrupted (feedbacks : List KeyedFeedback) : Prop :=
  ∃ before f later, feedbacks = before ++ f :: later ∧ reader.Foreign f ∧ reader.BusyOnly before

end RailcomReader

open RailcomReader

namespace PomStatus

variable {reader : RailcomReader} {s : PomStatus} {f : KeyedFeedback}

theorem readPacket_spec (s : PomStatus × RailcomStatusCode) (e : RailcomPacket) :
    (readPacket s e).1.errorCode = s.1.errorCode ∧
    ((readPacket s e).1.seenRailcomBusy = true ↔
      s.1.seenRailcomBusy = true ∨ (e.railcomChannel = 2 ∧ e.type = .busy)) ∧
    (e.railcomChannel = 2 ∧ e.type = .mobPom → (readPacket s e).2 = .ok) ∧
    (¬(e.railcomChannel = 2 ∧ e.type = .mobPom) → (readPacket s e).2 = s.2) := by
  by_cases hchannel : e.railcomChannel = 2
  · cases htype : e.type <;> simp [readPacket, hchannel, htype]
  · simp [readPacket, hchannel]

/-- What the packets of a feedback do: only a MOB_POM answer changes the status to record. -/
theorem foldl_readPacket (packets : List RailcomPacket) (s : PomStatus × RailcomStatusCode) :
    (packets.foldl readPacket s).1.errorCode = s.1.errorCode ∧
    ((packets.foldl readPacket s).1.seenRailcomBusy = true ↔ s.1.seenRailcomBusy = true ∨
      ∃ e ∈ packets, e.railcomChannel = 2 ∧ e.type = .busy) ∧
    ((∃ e ∈ packets, e.railcomChannel = 2 ∧ e.type = .mobPom) →
      (packets.foldl readPacket s).2 = .ok) ∧
    ((¬∃ e ∈ packets, e.railcomChannel = 2 ∧ e.type = .mobPom) →
      (packets.foldl readPacket s).2 = s.2) := by
  induction packets generalizing s with
  | nil => simp
  | cons e packets ih =>
    obtain ⟨hcode, hbusy, hpom, hnone⟩ := ih (readPacket s e)
    obtain ⟨hcode₁, hbusy₁, hpom₁, hnone₁⟩ := readPacket_spec s e
    rw [List.foldl_cons]
    simp only [List.mem_cons, exists_eq_or_imp]
    refine ⟨hcode.trans hcode₁, ?_, fun h => ?_, fun h => ?_⟩
    · rw [hbusy, hbusy₁, or_assoc]
    · by_cases hlater : ∃ e ∈ packets, e.railcomChannel = 2 ∧ e.type = .mobPom
      · exact hpom hlater
      · rw [hnone hlater]
        exact hpom₁ (h.resolve_right hlater)
    · rw [hnone fun hlater => h (.inr hlater), hnone₁ fun hhead => h (.inl hhead)]

/-- What one feedback does while none is recorded. -/
theorem railcomFeedback_cases (f : KeyedFeedback) (hpending : s.errorCode = .pending) :
    (reader.Foreign f ∧ s.seenRailcomBusy = true ∧
      (railcomFeedback reader s f).errorCode = .busy) ∨
    (reader.Answers .mobPom f ∧ (railcomFeedback reader s f).errorCode = .ok) ∨
    ((reader.Foreign f → s.seenRailcomBusy = false) ∧ ¬reader.Answers .mobPom f ∧
      (railcomFeedback reader s f).errorCode = .pending ∧
      ((railcomFeedback reader s f).seenRailcomBusy = true ↔
        s.seenRailcomBusy = true ∨ reader.Answers .busy f)) := by
  by_cases hforeign : f.feedbackKey ≠ reader.self
  · have hanswers : ∀ type, ¬reader.Answers type f := fun type h => hforeign h.1
    by_cases hbusy : s.seenRailcomBusy = true
    · refine .inl ⟨hforeign, hbusy, ?_⟩
      simp [railcomFeedback, hpending, hforeign, hbusy, record]
    · have hsame : railcomFeedback reader s f = s := by
        simp [railcomFeedback, hpending, hforeign, hbusy]
      rw [hsame]
      exact .inr (.inr ⟨fun _ => Bool.eq_false_iff.mpr hbusy, hanswers _, hpending,
        by simp [hanswers]⟩)
  by_cases hread : f.channel ≠ 0xff ∧ f.ch2Size ≠ 0
  · obtain ⟨hchannel, hsize⟩ := hread
    have hanswers : ∀ type, reader.Answers type f ↔
        ∃ e ∈ reader.parseRailcomData f, e.railcomChannel = 2 ∧ e.type = type := fun type =>
      ⟨fun h => h.2.2.2, fun h => ⟨not_not.mp hforeign, hchannel, hsize, h⟩⟩
    obtain ⟨hcode, hbusy, hpom, hnone⟩ :=
      foldl_readPacket (reader.parseRailcomData f) (s, .pending)
    have hfeedback : railcomFeedback reader s f =
        if ((reader.parseRailcomData f).foldl readPacket (s, .pending)).2 = .pending then
          ((reader.parseRailcomData f).foldl readPacket (s, .pending)).1
        else ((reader.parseRailcomData f).foldl readPacket (s, .pending)).1.record
          ((reader.parseRailcomData f).foldl readPacket (s, .pending)).2 := by
      rw [railcomFeedback, if_neg (not_not_intro hpending), if_neg hforeign, if_neg hchannel,
        if_neg hsize]
    by_cases hanswer : reader.Answers .mobPom f
    · rw [hfeedback, hpom ((hanswers _).mp hanswer)]
      exact .inr (.inl ⟨hanswer, rfl⟩)
    · rw [hfeedback, if_pos (hnone fun h => hanswer ((hanswers _).mpr h)), hanswers .busy]
      exact .inr (.inr ⟨fun h => absurd h hforeign, hanswer, hcode.trans hpending, hbusy⟩)
  · have hanswers : ∀ type, ¬reader.Answers type f := fun type h => hread ⟨h.2.1, h.2.2.1⟩
    have hsame : railcomFeedback reader s f = s := by
      rw [railcomFeedback, if_neg (not_not_intro hpending), if_neg hforeign]
      by_cases hchannel : f.channel = 0xff
      · rw [if_pos hchannel]
      · rw [if_neg hchannel, if_pos (not_not.mp fun hsize => hread ⟨hchannel, hsize⟩)]
    rw [hsame]
    exact .inr (.inr ⟨fun h => absurd h hforeign, hanswers _, hpending, by simp [hanswers]⟩)

/-- The feedbacks of a packet, when it is known whether the decoder was busy before them. -/
def InterruptedFrom (reader : RailcomReader) (busy : Prop) (feedbacks : List KeyedFeedback) :
    Prop :=
  ∃ before f later, feedbacks = before ++ f :: later ∧ reader.Foreign f ∧
    (busy ∨ ∃ g ∈ before, reader.Answers .busy g) ∧
    ∀ g ∈ before, ¬reader.Answers .mobPom g

theorem interruptedFrom_cons {busy : Prop} {feedbacks : List KeyedFeedback} :
    InterruptedFrom reader busy (f :: feedbacks) ↔ (reader.Foreign f ∧ busy) ∨
      (¬reader.Answers .mobPom f ∧
        InterruptedFrom reader (busy ∨ reader.Answers .busy f) feedbacks) := by
  constructor
  · rintro ⟨before, g, later, hsplit, hforeign, hbusy, hpom⟩
    cases before with
    | nil =>
      cases hsplit
      exact .inl ⟨hforeign, hbusy.resolve_right (by simp)⟩
    | cons h before =>
      cases hsplit
      refine .inr ⟨hpom _ List.mem_cons_self, before, g, later, rfl, hforeign, ?_,
        fun h hh => hpom h (List.mem_cons_of_mem _ hh)⟩
      rw [or_assoc]
      exact hbusy.imp_right fun h => by simpa using h
  · rintro (⟨hforeign, hbusy⟩ | ⟨hhead, before, g, later, rfl, hforeign, hbusy, hpom⟩)
    · exact ⟨[], f, feedbacks, rfl, hforeign, .inl hbusy, by simp⟩
    · refine ⟨f :: before, g, later, rfl, hforeign, ?_, by simpa using ⟨hhead, hpom⟩⟩
      rw [or_assoc] at hbusy
      exact hbusy.imp_right fun h => by simpa using h

theorem after_of_recorded (feedbacks : List KeyedFeedback) (h : s.errorCode ≠ .pending) :
    s.after reader feedbacks = s := by
  induction feedbacks with
  | nil => rfl
  | cons f feedbacks ih =>
    have hsame : railcomFeedback reader s f = s := if_pos h
    rw [after, List.foldl_cons, hsame]
    exact ih

theorem not_answers_of_foreign {type : RailcomPacketType} (h : reader.Foreign f) :
    ¬reader.Answers type f := fun hanswers => h hanswers.1

/-- The status after all feedbacks of a packet. -/
theorem after_cases (feedbacks : List KeyedFeedback) (hpending : s.errorCode = .pending) :
    (InterruptedFrom reader (s.seenRailcomBusy = true) feedbacks ∧
      (s.after reader feedbacks).errorCode = .busy) ∨
    (¬InterruptedFrom reader (s.seenRailcomBusy = true) feedbacks ∧
      (((∃ f ∈ feedbacks, reader.Answers .mobPom f) ∧
          (s.after reader feedbacks).errorCode = .ok) ∨
        ((∀ f ∈ feedbacks, ¬reader.Answers .mobPom f) ∧
          (s.after reader feedbacks).errorCode = .pending ∧
          ((s.after reader feedbacks).seenRailcomBusy = true ↔
            s.seenRailcomBusy = true ∨ ∃ f ∈ feedbacks, reader.Answers .busy f)))) := by
  induction feedbacks generalizing s with
  | nil =>
    refine .inr ⟨?_, .inr ⟨by simp, hpending, by simp [after]⟩⟩
    rintro ⟨before, f, later, hsplit, -⟩
    simp at hsplit
  | cons f feedbacks ih =>
    have hafter : s.after reader (f :: feedbacks) =
        (railcomFeedback reader s f).after reader feedbacks := rfl
    rw [hafter, interruptedFrom_cons]
    simp only [List.mem_cons, exists_eq_or_imp, forall_eq_or_imp]
    rcases railcomFeedback_cases f hpending with
      ⟨hforeign, hbusy, hcode⟩ | ⟨hpom, hcode⟩ | ⟨hforeign, hpom, hcode, hbusy⟩
    · refine .inl ⟨.inl ⟨hforeign, hbusy⟩, ?_⟩
      rw [after_of_recorded feedbacks (by simp [hcode]), hcode]
    · refine .inr ⟨?_, .inl ⟨.inl hpom, ?_⟩⟩
      · rintro (⟨hforeign, -⟩ | ⟨hnot, -⟩)
        · exact not_answers_of_foreign hforeign hpom
        · exact hnot hpom
      · rw [after_of_recorded feedbacks (by simp [hcode]), hcode]
    · have hrest := ih hcode
      rw [hbusy, or_assoc] at hrest
      have hhead : ¬(reader.Foreign f ∧ s.seenRailcomBusy = true) := fun h =>
        Bool.eq_false_iff.mp (hforeign h.1) h.2
      simpa only [hhead, hpom, false_or, not_false_eq_true, true_and] using hrest

/-- The status after the feedbacks of a packet that was just sent. -/
theorem after_start_cases (feedbacks : List KeyedFeedback) :
    (reader.Interrupted feedbacks ∧ (start.after reader feedbacks).errorCode = .busy) ∨
    (¬reader.Interrupted feedbacks ∧
      (((∃ f ∈ feedbacks, reader.Answers .mobPom f) ∧
          (start.after reader feedbacks).errorCode = .ok) ∨
        ((∀ f ∈ feedbacks, ¬reader.Answers .mobPom f) ∧
          (start.after reader feedbacks).errorCode = .pending ∧
          ((start.after reader feedbacks).seenRailcomBusy = true ↔
            ∃ f ∈ feedbacks, reader.Answers .busy f)))) := by
  have hinterrupted : InterruptedFrom reader (start.seenRailcomBusy = true) feedbacks ↔
      reader.Interrupted feedbacks := by
    simp [InterruptedFrom, Interrupted, BusyOnly, start]
  have hcases := @after_cases reader start feedbacks rfl
  rw [hinterrupted] at hcases
  simpa [start] using hcases

end PomStatus

end OpenmrnCue.CommandStation
