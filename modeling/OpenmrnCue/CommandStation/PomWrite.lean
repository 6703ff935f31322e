import OpenmrnCue.CommandStation.FrontendRuns
import OpenmrnCue.CommandStation.PomFeedback

/-! Writes on the main track.  A decoder that only answers that it is busy is asked again, up to
three times in all, unless a feedback for another packet comes in between: that is recorded as a
status which `write_returned` does not know. -/

namespace OpenmrnCue.CommandStation

/-- The address types that a write on the main track accepts. -/
def ProgrammingTrackFrontend.TrainAddressType.isDcc :
    ProgrammingTrackFrontend.TrainAddressType → Bool
  | .dccShortAddress | .dccLongAddress | .dccAccyBasicOutput | .dccAccyExt => true
  | .mm | .unspecified | .unsupported => false

namespace FrontendAnswer

/-- After this the packet is sent again, if it was not the last time. -/
def Repeats (answer : FrontendAnswer) : Prop :=
  answer.errorCode = .pending ∧ answer.seenRailcomBusy = true

end FrontendAnswer

namespace ProgrammingTrackFrontend

open FrontendAnswer

variable {params : FrontendParams} {s t c : ProgrammingTrackFrontend}
variable {exchanges : List Exchange} {answer : FrontendAnswer}

/-- The result of a packet that is not sent again. -/
def pomResult (answer : FrontendAnswer) : ResultCode :=
  match answer.errorCode with
  | .pending => noAnswer answer
  | .ok => .ok
  | .busy => .temporary

/-- A packet is sent again, or the request ends with its result. -/
theorem writeReturned_cases (answer : FrontendAnswer) (s : ProgrammingTrackFrontend) :
    (answer.Repeats ∧ s.numTry + 1 < 3 ∧
      s.writeReturned answer = { s with numTry := s.numTry + 1 }.goto .pomWriteByte) ∨
    (¬(answer.Repeats ∧ s.numTry + 1 < 3) ∧ (s.writeReturned answer).state = .idle ∧
      (s.writeReturned answer).results = s.results ++ [pomResult answer]) := by
  unfold writeReturned pomResult Repeats
  cases hcode : answer.errorCode with
  | pending =>
    dsimp only
    by_cases hbusy : answer.seenRailcomBusy = true
    · rw [if_pos hbusy]
      by_cases htries : s.numTry + 1 < 3
      · rw [if_pos htries]
        exact .inl ⟨⟨rfl, hbusy⟩, htries, rfl⟩
      · rw [if_neg htries]
        exact .inr ⟨fun h => htries h.2, rfl, rfl⟩
    · rw [if_neg hbusy]
      exact .inr ⟨fun h => hbusy h.1.2, rfl, rfl⟩
  | ok => exact .inr ⟨by simp, rfl, rfl⟩
  | busy => exact .inr ⟨by simp, rfl, rfl⟩

/-- A packet is sent to any DCC address. -/
theorem fillPomWriteBytePacket_isDcc (haddress : c.request.addrType.isDcc = true) :
    c.fillPomWriteBytePacket = { c with pomPackets := c.pomPackets ++ [PomPacket.write
      c.request.addrType c.request.dccAddress c.request.cvOffset c.request.value] }.goto
      .writeReturned := by
  unfold fillPomWriteBytePacket
  cases haddr : c.request.addrType <;> rw [haddr] at haddress <;> first | rfl | cases haddress

/-- The end of one attempt, with what comes after it. -/
theorem writeReturned_to (hstate : c.state = .writeReturned) (hplays : Plays params c exchanges t) :
    ∃ e rest, exchanges = e :: rest ∧
      ((e.answer.Repeats ∧ c.numTry + 1 < 3 ∧ ∃ u, Plays params u rest t ∧
          u.state = .pomWriteByte ∧ u.numTry = c.numTry + 1 ∧ u.request = c.request ∧
          u.results = c.results) ∨
        (¬(e.answer.Repeats ∧ c.numTry + 1 < 3) ∧ rest = [] ∧
          t.results = c.results ++ [pomResult e.answer])) := by
  obtain ⟨answer, rest, rfl, hrest⟩ := (plays_answer_iff (by rw [hstate]; rfl)).mp hplays
  rw [next_of_runState (by rw [runState, hstate])] at hrest
  refine ⟨_, rest, rfl, ?_⟩
  rcases writeReturned_cases answer c with ⟨hrepeats, htries, hnext⟩ | ⟨hends, hidle, hresults⟩
  · rw [hnext] at hrest
    exact .inl ⟨hrepeats, htries, _, hrest, rfl, rfl, rfl, rfl⟩
  · have hcore : (c.writeReturned answer).core.state = .idle := hidle
    obtain ⟨rfl, rfl⟩ := (plays_idle_iff hcore).mp hrest
    exact .inr ⟨hends, rfl, hresults⟩

theorem fillPomWriteBytePacket_to (hstate : c.state = .fillPomWriteBytePacket)
    (hplays : Plays params c exchanges t) (haddress : c.request.addrType.isDcc = true) :
    Plays params ({ c with pomPackets := c.pomPackets ++ [PomPacket.write c.request.addrType
      c.request.dccAddress c.request.cvOffset c.request.value] }.goto .writeReturned).core
      exchanges t := by
  refine internal_to (by simp [hstate]) (by simp [hstate, FrontendState.consumes])
    (fun answer => ?_) hplays
  have hrun : c.runState params answer = some c.fillPomWriteBytePacket := by
    rw [runState, hstate]
  rw [hrun, fillPomWriteBytePacket_isDcc haddress]

/-- One attempt of a write. -/
theorem pomWriteByte_to (hstate : c.state = .pomWriteByte)
    (haddress : c.request.addrType.isDcc = true) (hplays : Plays params c exchanges t) :
    ∃ e rest, exchanges = e :: rest ∧
      ((e.answer.Repeats ∧ c.numTry + 1 < 3 ∧ ∃ u, Plays params u rest t ∧
          u.state = .pomWriteByte ∧ u.numTry = c.numTry + 1 ∧ u.request = c.request ∧
          u.results = c.results) ∨
        (¬(e.answer.Repeats ∧ c.numTry + 1 < 3) ∧ rest = [] ∧
          t.results = c.results ++ [pomResult e.answer])) := by
  have h₁ := internal_to (by simp [hstate]) (by simp [hstate, FrontendState.consumes])
    (fun answer => by rw [runState, hstate]) hplays
  have h₂ := writeReturned_to rfl (fillPomWriteBytePacket_to rfl h₁ haddress)
  exact h₂

/-- The attempts of a write: all but the last one are repeated. -/
theorem pomWriteByte_plays (answers : Nat → FrontendAnswer) (hstate : c.state = .pomWriteByte)
    (hplays : Plays params c exchanges t) (haddress : c.request.addrType.isDcc = true)
    (htry : c.numTry < 3)
    (hanswers : exchanges.map (·.answer) = (List.range exchanges.length).map answers) :
    ∃ last, exchanges.length = last + 1 ∧ c.numTry + last < 3 ∧
      (∀ n < last, (answers n).Repeats) ∧
      ¬((answers last).Repeats ∧ c.numTry + last + 1 < 3) ∧
      t.results = c.results ++ [pomResult (answers last)] := by
  induction exchanges generalizing c answers with
  | nil =>
    obtain ⟨e, rest, hcons, -⟩ := pomWriteByte_to hstate haddress hplays
    cases hcons
  | cons e exchanges ih =>
    obtain ⟨e, rest, hcons, hcase⟩ := pomWriteByte_to hstate haddress hplays
    cases hcons
    rw [List.map_cons, List.length_cons, List.range_succ_eq_map, List.map_cons, List.map_map,
      List.cons.injEq] at hanswers
    obtain ⟨hhead, hrest⟩ := hanswers
    rcases hcase with ⟨hrepeats, hless, u, hu, hustate, htries, hrequest, hresults⟩ |
      ⟨hends, rfl, hresults⟩
    · obtain ⟨last, hlength, hlast, hall, hstop, ht⟩ :=
        ih (fun n => answers (n + 1)) hustate hu (hrequest ▸ haddress) (by omega) hrest
      refine ⟨last + 1, by rw [List.length_cons, hlength], by omega, fun n hn => ?_, ?_, ?_⟩
      · cases n with
        | zero => exact hhead ▸ hrepeats
        | succ n => exact hall n (by omega)
      · rintro ⟨hrepeats, hmore⟩
        exact hstop ⟨hrepeats, by omega⟩
      · rw [ht, hresults]
    · refine ⟨0, rfl, by omega, by simp, ?_, ?_⟩
      · rw [← hhead]
        exact hends
      · rw [hresults, hhead]

/-! ### The feedbacks of the attempts -/

/-- What the flow is told at the end of each attempt, when these feedbacks come during it. -/
def pomAnswers (reader : RailcomReader) (feedbacks : Nat → List KeyedFeedback) (attempt : Nat) :
    FrontendAnswer :=
  (PomStatus.start.after reader (feedbacks attempt)).answer

/-- What a write says about these feedbacks: its result is a success exactly when the decoder
answered the last attempt, and an attempt with nothing but busy answers is not the last one unless
it is the third. -/
structure BusyRetried (reader : RailcomReader) (feedbacks : Nat → List KeyedFeedback)
    (attempts : Nat) (code : ResultCode) : Prop where
  result : code = .ok ∨ code = .invalidResponse ∨ code = .noRailcom
  ok : code = .ok ↔ ∃ f ∈ feedbacks (attempts - 1), reader.Answers .mobPom f
  repeated : ∀ n < attempts, reader.BusyOnly (feedbacks n) → n + 1 < attempts ∨ n = 2

/-- No attempt that is made has a feedback for another packet after busy answers only. -/
def NeverInterrupted (reader : RailcomReader) (feedbacks : Nat → List KeyedFeedback) : Prop :=
  ∀ n < 3, (∀ m < n, reader.BusyOnly (feedbacks m)) → ¬reader.Interrupted (feedbacks n)

section

variable {reader : RailcomReader} {feedbacks : Nat → List KeyedFeedback} {n : Nat}

theorem noAnswer_cases (answer : FrontendAnswer) :
    noAnswer answer = .invalidResponse ∨ noAnswer answer = .noRailcom := by
  unfold noAnswer
  split_ifs
  · exact .inl rfl
  · exact .inr rfl

/-- An attempt is repeated when the decoder was only busy and nothing came in between. -/
theorem repeats_iff : (pomAnswers reader feedbacks n).Repeats ↔
    ¬reader.Interrupted (feedbacks n) ∧ reader.BusyOnly (feedbacks n) := by
  show (PomStatus.start.after reader (feedbacks n)).errorCode = .pending ∧
    (PomStatus.start.after reader (feedbacks n)).seenRailcomBusy = true ↔ _
  rcases PomStatus.after_start_cases (feedbacks n) with
    ⟨hinterrupted, hcode⟩ | ⟨hclear, ⟨⟨f, hf, hpom⟩, hcode⟩ | ⟨hpom, hcode, hbusy⟩⟩
  · rw [hcode]
    exact ⟨fun h => (by cases h.1), fun h => absurd hinterrupted h.1⟩
  · rw [hcode]
    exact ⟨fun h => (by cases h.1), fun h => absurd hpom (h.2.2 f hf)⟩
  · rw [hcode, hbusy]
    exact ⟨fun h => ⟨hclear, h.2, hpom⟩, fun h => ⟨rfl, h.2.1⟩⟩

/-- The result of an attempt in which nothing came in between. -/
theorem pomResult_cases (hclear : ¬reader.Interrupted (feedbacks n)) :
    ((∃ f ∈ feedbacks n, reader.Answers .mobPom f) ∧
      pomResult (pomAnswers reader feedbacks n) = .ok) ∨
    ((¬∃ f ∈ feedbacks n, reader.Answers .mobPom f) ∧
      (pomResult (pomAnswers reader feedbacks n) = .invalidResponse ∨
        pomResult (pomAnswers reader feedbacks n) = .noRailcom)) := by
  unfold pomResult
  rcases PomStatus.after_start_cases (feedbacks n) with
    ⟨hinterrupted, -⟩ | ⟨-, ⟨hpom, hcode⟩ | ⟨hpom, hcode, -⟩⟩
  · exact absurd hinterrupted hclear
  · have hanswer : (pomAnswers reader feedbacks n).errorCode = .ok := hcode
    rw [hanswer]
    exact .inl ⟨hpom, rfl⟩
  · have hanswer : (pomAnswers reader feedbacks n).errorCode = .pending := hcode
    rw [hanswer]
    exact .inr ⟨fun ⟨f, hf, hanswers⟩ => hpom f hf hanswers, noAnswer_cases _⟩

/-- A status that the flow does not know. -/
theorem pomResult_interrupted (h : reader.Interrupted (feedbacks n)) :
    pomResult (pomAnswers reader feedbacks n) = .temporary := by
  unfold pomResult
  rcases PomStatus.after_start_cases (feedbacks n) with ⟨-, hcode⟩ | ⟨hclear, -⟩
  · have hanswer : (pomAnswers reader feedbacks n).errorCode = .busy := hcode
    rw [hanswer]
  · exact absurd h hclear

end

/-- The attempts of a request for a write. -/
theorem entry_plays {reader : RailcomReader} {feedbacks : Nat → List KeyedFeedback}
    (hstate : c.state = .entry) (hcmd : c.request.cmd = .pomWriteByte)
    (haddress : c.request.addrType.isDcc = true) (hplays : Plays params c exchanges t)
    (hanswers : exchanges.map (·.answer) =
      (List.range exchanges.length).map (pomAnswers reader feedbacks)) :
    ∃ last, exchanges.length = last + 1 ∧ last < 3 ∧
      (∀ n < last, ¬reader.Interrupted (feedbacks n) ∧ reader.BusyOnly (feedbacks n)) ∧
      ¬((¬reader.Interrupted (feedbacks last) ∧ reader.BusyOnly (feedbacks last)) ∧
        last + 1 < 3) ∧
      t.results = c.results ++ [pomResult (pomAnswers reader feedbacks last)] := by
  have hentry : c.entry = { c with numTry := 0 }.goto .pomWriteByte := by
    unfold entry
    rw [hcmd]
  have h₁ := internal_to (by simp [hstate]) (by simp [hstate, FrontendState.consumes])
    (fun answer => by
      have hrun : c.runState params answer = some c.entry := by rw [runState, hstate]
      rw [hrun, hentry]) hplays
  obtain ⟨last, hlength, hlast, hall, hstop, hresults⟩ :=
    pomWriteByte_plays (pomAnswers reader feedbacks) rfl h₁ haddress (Nat.succ_pos 2) hanswers
  have htries : (({ c with numTry := 0 }.goto .pomWriteByte).core).numTry = 0 := rfl
  rw [htries, Nat.zero_add] at hlast hstop
  exact ⟨last, hlength, hlast, fun n hn => repeats_iff.mp (hall n hn),
    fun h => hstop ⟨repeats_iff.mpr h.1, h.2⟩, hresults⟩

/-- A busy decoder is asked again exactly when no feedback for another packet comes in between. -/
theorem busyRetried_iff (params : FrontendParams) (reader : RailcomReader)
    (s : ProgrammingTrackFrontend) (hstate : s.state = .entry)
    (hcmd : s.request.cmd = .pomWriteByte) (haddress : s.request.addrType.isDcc = true)
    (feedbacks : Nat → List KeyedFeedback) :
    (∃ exchanges t, Serves params s exchanges t ∧ exchanges.map (·.answer) =
      (List.range exchanges.length).map (pomAnswers reader feedbacks)) ∧
    ∀ exchanges t, Serves params s exchanges t → exchanges.map (·.answer) =
        (List.range exchanges.length).map (pomAnswers reader feedbacks) →
      ∃ code, t.results = s.results ++ [code] ∧
        (BusyRetried reader feedbacks exchanges.length code ↔
          NeverInterrupted reader feedbacks) := by
  refine ⟨exists_serves params (fun h => by simp [hstate] at h) (pomAnswers reader feedbacks),
    fun exchanges t hserves hanswers => ?_⟩
  have hcore : s.core.state = .entry := hstate
  obtain ⟨last, hlength, hlast, hall, hstop, hresults⟩ :=
    entry_plays hcore hcmd haddress hserves.plays hanswers
  refine ⟨_, hresults, ?_⟩
  rw [hlength]
  constructor
  · intro hretried n hn hbusy hinterrupted
    rcases Nat.lt_trichotomy n last with hless | rfl | hmore
    · exact (hall n hless).1 hinterrupted
    · have hresult := hretried.result
      rw [pomResult_interrupted hinterrupted] at hresult
      simp at hresult
    · have hnext := hretried.repeated last (Nat.lt_succ_self last) (hbusy last hmore)
      omega
  · intro hnever
    have hclear : ¬reader.Interrupted (feedbacks last) :=
      hnever last hlast fun m hm => (hall m hm).2
    have hrepeated : ∀ n < last + 1, reader.BusyOnly (feedbacks n) → n + 1 < last + 1 ∨ n = 2 := by
      intro n hn hbusy
      by_cases hnlast : n = last
      · subst hnlast
        have hthird : ¬n + 1 < 3 := fun h => hstop ⟨⟨hclear, hbusy⟩, h⟩
        omega
      · omega
    rcases pomResult_cases hclear with ⟨hpom, hresult⟩ | ⟨hpom, hresult⟩
    · exact ⟨.inl hresult, ⟨fun _ => hpom, fun _ => hresult⟩, hrepeated⟩
    · refine ⟨.inr hresult, ⟨fun h => ?_, fun h => absurd h hpom⟩, hrepeated⟩
      rw [h] at hresult
      simp at hresult

/-- A frontend that is to write a variable on the main track. -/
def samplePomWrite : ProgrammingTrackFrontend :=
  { start with state := .entry, request := ⟨.pomWriteByte, 7, 42, 0, .dccShortAddress, 3⟩ }

/-- The parser finds the code for a busy decoder. -/
def sampleReader : RailcomReader where
  self := 1
  parseRailcomData f := if f.ch2Data = [0xE1] then [⟨2, .busy, 0⟩] else []

/-- The decoder is busy. -/
def busyFeedback : KeyedFeedback := ⟨1, 0, 1, [0xE1]⟩

/-- A feedback for another packet. -/
def foreignFeedback : KeyedFeedback := ⟨2, 0, 1, [0xE1]⟩

/-- The decoder is busy in all attempts. -/
theorem alwaysBusy_retried : ∃ exchanges t code, Serves ⟨false, 5, 15⟩ samplePomWrite exchanges t ∧
    t.results = [code] ∧
    BusyRetried sampleReader (fun _ => [busyFeedback]) exchanges.length code := by
  obtain ⟨⟨exchanges, t, hserves, hanswers⟩, hall⟩ := busyRetried_iff ⟨false, 5, 15⟩ sampleReader
    samplePomWrite rfl rfl rfl fun _ => [busyFeedback]
  obtain ⟨code, hresults, hretried⟩ := hall exchanges t hserves hanswers
  refine ⟨exchanges, t, code, hserves, hresults, hretried.mpr ?_⟩
  rintro n - - ⟨before, f, later, hsplit, hforeign, -⟩
  have hmem : f ∈ [busyFeedback] := by
    rw [show [busyFeedback] = before ++ f :: later from hsplit]
    exact List.mem_append_right before List.mem_cons_self
  rw [List.mem_singleton.mp hmem] at hforeign
  exact hforeign rfl

/-- The decoder is busy, and a feedback for another packet follows. -/
theorem busy_then_foreign_fails : ∃ exchanges t, Serves ⟨false, 5, 15⟩ samplePomWrite exchanges t ∧
    exchanges.map (·.answer) = (List.range exchanges.length).map
      (pomAnswers sampleReader fun _ => [busyFeedback, foreignFeedback]) ∧
    t.results = [.temporary] ∧ ∀ code, t.results = [code] →
      ¬BusyRetried sampleReader (fun _ => [busyFeedback, foreignFeedback]) exchanges.length
        code := by
  refine ⟨_, _, .internal (pomAnswers sampleReader (fun _ => []) 0) (by decide) rfl rfl <|
    .internal (pomAnswers sampleReader (fun _ => []) 0) (by decide) rfl rfl <|
    .internal (pomAnswers sampleReader (fun _ => []) 0) (by decide) rfl rfl <|
    .answer (pomAnswers sampleReader (fun _ => [busyFeedback, foreignFeedback]) 0) rfl rfl <|
    .done rfl, rfl, rfl, ?_⟩
  intro code hcode hretried
  have hresult := hretried.result
  cases hcode
  simp at hresult

end ProgrammingTrackFrontend

end OpenmrnCue.CommandStation
