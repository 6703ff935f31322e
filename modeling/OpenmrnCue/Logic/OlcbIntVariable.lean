import Mathlib.Data.List.Induction
import Mathlib.Algebra.Order.Ring.Int

/-! `OlcbIntVariable`: an integer variable of the logic language that is shared over the network.
Each of its states has an event of its own.  The variable follows the events that are reported, it
reports the states that are written to it, and it answers who asks for one of its events. -/

namespace OpenmrnCue.Logic

/-! ## Messages -/

/-- `openlcb::EventState`. -/
inductive EventState where
  | valid
  | invalid
  | reserved
  | unknown
deriving DecidableEq, Repr

/-- The two sides of an event. -/
inductive EventRole where
  | consumer
  | producer
deriving DecidableEq, Repr

/-- The messages about events: `MTI_EVENT_REPORT`, `MTI_CONSUMER_IDENTIFY`, and those that identify
a consumer or producer of an event or of a range. -/
inductive EventMti where
  | eventReport
  | consumerIdentify
  | identified (role : EventRole) (state : EventState)
  | identifiedRange (role : EventRole)
deriving DecidableEq, Repr

/-- The numbers of these messages and of `EventState`, and `EncodeRange`. -/
structure EventCodes where
  mti : EventMti → UInt16
  eventState : EventState → UInt16
  encodeRange : UInt64 → UInt8 → UInt64

/-- The numbers of identified messages lie as those of `EventState` do, and no two are the same. -/
structure EventCodes.Documented (codes : EventCodes) : Prop where
  identified : ∀ role state, codes.mti (.identified role state) =
    codes.mti (.identified role .valid) + codes.eventState state
  injective : ∀ m m', codes.mti m = codes.mti m' → m = m'

structure EventMessage where
  mti : UInt16
  event : UInt64
deriving DecidableEq, Repr

/-! ## The variable -/

/-- `OlcbIntVariable`, with the offset that the constructor asks for next. -/
structure OlcbIntVariable where
  eventBase : UInt64
  stateKnown : Bool
  state : UInt8
  numStates : UInt8
  ofs : UInt8
deriving DecidableEq, Repr

/-- What a call leaves: the variable, the messages that it sends, and whether it reports an access
error. -/
structure VariableOutcome where
  var : OlcbIntVariable
  messages : List EventMessage
  accessError : Bool
deriving DecidableEq, Repr

namespace OlcbIntVariable

/-- The constructor, before its loop. -/
def init (eventBase : UInt64) (numStates : UInt8) : OlcbIntVariable where
  eventBase := eventBase
  stateKnown := false
  state := 0
  numStates := numStates
  ofs := 0

variable (codes : EventCodes) (v : OlcbIntVariable)

/-- The event of the current state. -/
def stateEvent : UInt64 := v.eventBase + v.state.toUInt64

/-- `max_state`. -/
def maxState : Int := v.numStates.toNat - 1

/-- `read`. -/
def read : Int := v.state.toNat

/-- `is_known`. -/
def isKnown : Bool := v.stateKnown

/-- The loop of the constructor, which goes on with one query. -/
def query : VariableOutcome :=
  if !v.stateKnown && v.ofs < v.numStates then
    ⟨{ v with ofs := v.ofs + 1 },
      [⟨codes.mti .consumerIdentify, v.eventBase + v.ofs.toUInt64⟩], false⟩
  else ⟨v, [], false⟩

/-- `write`. -/
def write (value : Int32) : VariableOutcome :=
  if value.toInt < 0 ∨ value.toInt ≥ v.numStates.toNat then ⟨v, [], true⟩
  else
    let needUpdate := !v.stateKnown || decide ((v.state.toNat : Int) ≠ value.toInt)
    let v := { v with stateKnown := true, state := UInt8.ofNat value.toInt.toNat }
    ⟨v, if needUpdate then [⟨codes.mti .eventReport, v.stateEvent⟩] else [], false⟩

/-- `decode_event`. -/
def decodeEvent (event : UInt64) : Option UInt8 :=
  if event < v.eventBase then none
  else if event ≥ v.eventBase + v.numStates.toUInt64 then none
  else some (event - v.eventBase).toUInt8

/-- The variable has learned a state. -/
def learn (st : UInt8) : OlcbIntVariable := { v with stateKnown := true, state := st }

/-- `handle_event_report`. -/
def handleEventReport (event : UInt64) : VariableOutcome :=
  match v.decodeEvent event with
  | some st => ⟨v.learn st, [], false⟩
  | none => ⟨v, [], false⟩

/-- The identify handlers. -/
def handleIdentify (role : EventRole) (event : UInt64) : VariableOutcome :=
  match v.decodeEvent event with
  | none => ⟨v, [], false⟩
  | some st =>
    let est : EventState :=
      if v.stateKnown then (if st = v.state then .valid else .invalid) else .unknown
    let mti := codes.mti (.identified role .valid) + codes.eventState est
    ⟨v, ⟨mti, event⟩ :: if v.stateKnown && st != v.state then
      [⟨codes.mti (.identified role .valid), v.stateEvent⟩] else [], false⟩

/-- `handle_identify_consumer`. -/
def handleIdentifyConsumer : UInt64 → VariableOutcome := v.handleIdentify codes .consumer

/-- `handle_identify_producer`. -/
def handleIdentifyProducer : UInt64 → VariableOutcome := v.handleIdentify codes .producer

/-- `handle_consumer_identified`, and `handle_producer_identified`, which is the same. -/
def handleConsumerIdentified (event : UInt64) (state : EventState) : VariableOutcome :=
  if v.stateKnown then ⟨v, [], false⟩
  else if state ≠ .valid then ⟨v, [], false⟩
  else match v.decodeEvent event with
  | some st => ⟨v.learn st, [], false⟩
  | none => ⟨v, [], false⟩

/-- `handle_producer_identified`. -/
def handleProducerIdentified : UInt64 → EventState → VariableOutcome := v.handleConsumerIdentified

/-- `handle_identify_global`, of a request for all nodes, for this node or for another one. -/
def handleIdentifyGlobal (forOther : Bool) : VariableOutcome :=
  if forOther then ⟨v, [], false⟩
  else
    let range := codes.encodeRange v.eventBase v.numStates
    ⟨v, [⟨codes.mti (.identifiedRange .consumer), range⟩,
        ⟨codes.mti (.identifiedRange .producer), range⟩] ++
      if v.stateKnown then
        [⟨codes.mti (.identified .producer .valid), v.stateEvent⟩,
          ⟨codes.mti (.identified .consumer .valid), v.stateEvent⟩]
      else [], false⟩

/-! ## Histories -/

/-- What happens to the variable. -/
inductive Input where
  | query
  | write (value : Int32)
  | eventReport (event : UInt64)
  | identify (role : EventRole) (event : UInt64)
  | identified (role : EventRole) (event : UInt64) (state : EventState)
  | identifyGlobal (forOther : Bool)
deriving DecidableEq, Repr

def handle : Input → VariableOutcome
  | .query => v.query codes
  | .write value => v.write codes value
  | .eventReport event => v.handleEventReport event
  | .identify .consumer event => v.handleIdentifyConsumer codes event
  | .identify .producer event => v.handleIdentifyProducer codes event
  | .identified .consumer event state => v.handleConsumerIdentified event state
  | .identified .producer event state => v.handleProducerIdentified event state
  | .identifyGlobal forOther => v.handleIdentifyGlobal codes forOther

/-- The variable after a history. -/
def after (history : List Input) : OlcbIntVariable :=
  history.foldl (fun v i => (v.handle codes i).var) v

/-! ## What the variable is for -/

section Followed

variable (base : UInt64) (num : UInt8)

/-- The events of the states, which are consecutive. -/
def InRange (event : UInt64) : Prop :=
  base.toNat ≤ event.toNat ∧ event.toNat < base.toNat + num.toNat

instance (event : UInt64) : Decidable (InRange base num event) :=
  inferInstanceAs (Decidable (_ ∧ _))

/-- A write is accepted if it is of one of the states. -/
def Accepted (value : Int32) : Prop := 0 ≤ value.toInt ∧ value.toInt < num.toNat

instance (value : Int32) : Decidable (Accepted num value) :=
  inferInstanceAs (Decidable (_ ∧ _))

/-- The state that an input sets: an accepted write, or the report of an event in the range. -/
def setBy : Input → Option ℕ
  | .write value => if Accepted num value then some value.toInt.toNat else none
  | .eventReport event => if InRange base num event then some (event.toNat - base.toNat) else none
  | _ => none

/-- The state that is learned as long as it is unknown. -/
def recoveredBy : Input → Option ℕ
  | .identified _ event .valid =>
    if InRange base num event then some (event.toNat - base.toNat) else none
  | _ => none

/-- The state of the last input that sets it, or else of the first that it is learned from. -/
def followed (history : List Input) : Option ℕ :=
  (history.filterMap (setBy base num)).getLast?.or
    (history.filterMap (recoveredBy base num)).head?

variable {base num} {history : List Input} {i : Input}

theorem followed_concat_set {st : ℕ} (h : setBy base num i = some st) :
    followed base num (history ++ [i]) = some st := by
  simp [followed, List.filterMap_append, h]

theorem followed_concat_other (h : setBy base num i = none) :
    followed base num (history ++ [i]) =
      (followed base num history).or (recoveredBy base num i) := by
  cases hrecovered : recoveredBy base num i with
  | none => simp [followed, List.filterMap_append, h, hrecovered]
  | some st =>
    cases (history.filterMap (recoveredBy base num)) <;>
      simp [followed, List.filterMap_append, h, hrecovered]

end Followed

/-! ## Steps -/

section Steps

variable {v} {base : UInt64} {num : UInt8} {event : UInt64} {value : Int32}

theorem toNat_add_state (hbase : base.toNat + num.toNat < 2 ^ 64) {st : UInt8}
    (hst : st.toNat ≤ num.toNat) : (base + st.toUInt64).toNat = base.toNat + st.toNat := by
  rw [UInt64.toNat_add, UInt8.toNat_toUInt64, Nat.mod_eq_of_lt (by omega)]

/-- The events of the range decode to their offsets. -/
theorem decodeEvent_of_inRange (hbase : base.toNat + num.toNat < 2 ^ 64)
    (hv : v.eventBase = base ∧ v.numStates = num) (h : InRange base num event) :
    ∃ st, v.decodeEvent event = some st ∧ st.toNat = event.toNat - base.toNat := by
  obtain ⟨rfl, rfl⟩ := hv
  have hend := toNat_add_state hbase (Nat.le_refl _)
  obtain ⟨hbelow, habove⟩ := h
  have hle : v.eventBase ≤ event := UInt64.le_iff_toNat_le.mpr hbelow
  have hlow : ¬ event < v.eventBase := by
    rw [UInt64.lt_iff_toNat_lt]
    omega
  have hhigh : ¬ event ≥ v.eventBase + v.numStates.toUInt64 := by
    rw [ge_iff_le, UInt64.le_iff_toNat_le, hend]
    omega
  refine ⟨_, by rw [decodeEvent, if_neg hlow, if_neg hhigh], ?_⟩
  have hnum := v.numStates.toNat_lt
  rw [UInt64.toNat_toUInt8, UInt64.toNat_sub_of_le _ _ hle, Nat.mod_eq_of_lt (by omega)]

theorem decodeEvent_eq_none (hbase : base.toNat + num.toNat < 2 ^ 64)
    (hv : v.eventBase = base ∧ v.numStates = num) (h : ¬ InRange base num event) :
    v.decodeEvent event = none := by
  obtain ⟨rfl, rfl⟩ := hv
  have hend := toNat_add_state hbase (Nat.le_refl _)
  unfold decodeEvent
  split
  · rfl
  · next hlow =>
    rw [UInt64.lt_iff_toNat_lt] at hlow
    refine if_pos ?_
    rw [ge_iff_le, UInt64.le_iff_toNat_le, hend]
    unfold InRange at h
    omega

theorem write_rejected (hnum : v.numStates = num) (h : ¬ Accepted num value) :
    v.write codes value = ⟨v, [], true⟩ := by
  subst hnum
  refine if_pos ?_
  unfold Accepted at h
  omega

/-- An accepted write sets the state, and reports its event unless the state was known to be so. -/
theorem write_accepted (hnum : v.numStates = num) (h : Accepted num value) :
    ∃ st : UInt8, (st.toNat : Int) = value.toInt ∧ v.write codes value =
      ⟨v.learn st, if v.stateKnown = false ∨ v.state ≠ st then
        [⟨codes.mti .eventReport, v.eventBase + st.toUInt64⟩] else [], false⟩ := by
  subst hnum
  obtain ⟨hlow, hhigh⟩ := h
  have hnum := v.numStates.toNat_lt
  have hbyte : value.toInt.toNat < UInt8.size := by
    show value.toInt.toNat < 256
    omega
  have hvalue : (UInt8.ofNat value.toInt.toNat).toNat = value.toInt.toNat :=
    UInt8.toNat_ofNat_of_lt' hbyte
  have hsame : (v.state.toNat : Int) = value.toInt ↔ v.state = UInt8.ofNat value.toInt.toNat := by
    rw [← UInt8.toNat_inj, hvalue]
    omega
  refine ⟨UInt8.ofNat value.toInt.toNat, by rw [hvalue]; omega, ?_⟩
  unfold write
  rw [if_neg (by omega)]
  simp only [ne_eq, hsame, learn, stateEvent, Bool.or_eq_true, Bool.not_eq_true', decide_eq_true_eq]

end Steps

/-- The variable has this state, or does not know any. -/
structure Tracks (base : UInt64) (num : UInt8) (st : Option ℕ) (v : OlcbIntVariable) : Prop where
  eventBase : v.eventBase = base
  numStates : v.numStates = num
  stateKnown : v.stateKnown = st.isSome
  state : v.state.toNat = st.getD 0
  lt : v.state.toNat < num.toNat

section Tracks

variable {v} {base : UInt64} {num : UInt8} {known : Option ℕ} {event : UInt64} {i : Input}
  (hbase : base.toNat + num.toNat < 2 ^ 64)

theorem Tracks.learn (h : Tracks base num known v) {st : UInt8} (hst : st.toNat < num.toNat) :
    Tracks base num (some st.toNat) (v.learn st) :=
  ⟨h.eventBase, h.numStates, rfl, rfl, hst⟩

include hbase

/-- An event of the range is learned. -/
theorem Tracks.learn_event (h : Tracks base num known v) (hevent : InRange base num event) :
    ∃ st, v.decodeEvent event = some st ∧
      Tracks base num (some (event.toNat - base.toNat)) (v.learn st) := by
  obtain ⟨st, hdecode, hst⟩ := decodeEvent_of_inRange hbase ⟨h.eventBase, h.numStates⟩ hevent
  refine ⟨st, hdecode, ?_⟩
  rw [← hst]
  refine h.learn ?_
  unfold InRange at hevent
  omega

theorem Tracks.decode_eq_none (h : Tracks base num known v) (hevent : ¬ InRange base num event) :
    v.decodeEvent event = none :=
  decodeEvent_eq_none hbase ⟨h.eventBase, h.numStates⟩ hevent

theorem Tracks.eventReport (h : Tracks base num known v) (event : UInt64) :
    Tracks base num ((setBy base num (.eventReport event)).or known)
      (v.handleEventReport event).var := by
  unfold handleEventReport
  by_cases hevent : InRange base num event
  · obtain ⟨st, hdecode, hlearn⟩ := h.learn_event hbase hevent
    rw [setBy, if_pos hevent, hdecode]
    exact hlearn
  · rw [setBy, if_neg hevent, h.decode_eq_none hbase hevent]
    exact h

theorem Tracks.identified (h : Tracks base num known v) (role : EventRole) (event : UInt64)
    (state : EventState) :
    Tracks base num (known.or (recoveredBy base num (.identified role event state)))
      (v.handleConsumerIdentified event state).var := by
  unfold handleConsumerIdentified
  rw [h.stateKnown]
  cases known with
  | some st => exact h
  | none =>
    rw [if_neg (by simp)]
    cases state with
    | valid =>
      rw [if_neg (by simp)]
      by_cases hevent : InRange base num event
      · obtain ⟨st, hdecode, hlearn⟩ := h.learn_event hbase hevent
        rw [recoveredBy, if_pos hevent, hdecode]
        exact hlearn
      · rw [recoveredBy, if_neg hevent, h.decode_eq_none hbase hevent]
        exact h
    | _ => exact h

/-- What an input sets is the state; otherwise it is learned if there is none yet. -/
theorem Tracks.handle (h : Tracks base num known v) (i : Input) :
    Tracks base num ((setBy base num i).or (known.or (recoveredBy base num i)))
      (v.handle codes i).var := by
  have hsame : known.or none = known := Option.or_none
  cases i with
  | query =>
    show Tracks base num (known.or none) (v.query codes).var
    rw [hsame]
    unfold query
    split
    · exact ⟨h.eventBase, h.numStates, h.stateKnown, h.state, h.lt⟩
    · exact h
  | write value =>
    show Tracks base num ((setBy base num (.write value)).or (known.or none))
      (v.write codes value).var
    rw [hsame]
    by_cases hvalue : Accepted num value
    · obtain ⟨st, hst, hwrite⟩ := write_accepted codes h.numStates hvalue
      have hnat : st.toNat = value.toInt.toNat := by omega
      rw [setBy, if_pos hvalue, hwrite, ← hnat]
      refine h.learn ?_
      unfold Accepted at hvalue
      omega
    · rw [setBy, if_neg hvalue, write_rejected codes h.numStates hvalue]
      exact h
  | eventReport event =>
    show Tracks base num ((setBy base num (.eventReport event)).or (known.or none))
      (v.handleEventReport event).var
    rw [hsame]
    exact h.eventReport hbase event
  | identify role event =>
    show Tracks base num (known.or none) (v.handle codes (.identify role event)).var
    rw [hsame]
    cases role <;>
    · simp only [OlcbIntVariable.handle, handleIdentifyConsumer, handleIdentifyProducer,
        handleIdentify]
      split <;> exact h
  | identified role event state =>
    cases role with
    | consumer => exact h.identified hbase .consumer event state
    | producer => exact h.identified hbase .producer event state
  | identifyGlobal forOther =>
    show Tracks base num (known.or none) (v.handleIdentifyGlobal codes forOther).var
    rw [hsame]
    unfold handleIdentifyGlobal
    split <;> exact h

omit hbase in
/-- What is read is one of the states. -/
theorem Tracks.read_le_maxState (h : Tracks base num known v) :
    0 ≤ v.read ∧ v.read ≤ v.maxState ∧ v.isKnown = known.isSome := by
  have hlt := h.lt
  rw [← h.numStates] at hlt
  refine ⟨Int.natCast_nonneg _, ?_, h.stateKnown⟩
  unfold read maxState
  omega

/-- After a history, the variable has the state that the history leads to. -/
theorem tracks_after (hnum : 1 ≤ num.toNat) (history : List Input) :
    Tracks base num (followed base num history) ((init base num).after codes history) := by
  induction history using List.reverseRecOn with
  | nil => exact ⟨rfl, rfl, rfl, rfl, hnum⟩
  | append_singleton history i ih =>
    have hstep := ih.handle codes hbase i
    rw [show (init base num).after codes (history ++ [i]) =
      (((init base num).after codes history).handle codes i).var by simp [after]]
    cases hset : setBy base num i with
    | some st =>
      rw [hset] at hstep
      rwa [followed_concat_set hset]
    | none =>
      rw [hset] at hstep
      rwa [followed_concat_other hset]

end Tracks

/-! ## Answers -/

/-- The event that an input is about. -/
def Input.event? : Input → Option UInt64
  | .eventReport event | .identify _ event | .identified _ event _ => some event
  | _ => none

/-- The messages that identify the variable in this role, with a valid state. -/
def validAnswers (codes : EventCodes) (role : EventRole) (messages : List EventMessage) : ℕ :=
  messages.countP (·.mti = codes.mti (.identified role .valid))

/-- What holds of the variable after a history: its state is the one that the history leads to, it
is changed by nothing else, its writes are reported, and requests are answered by its state. -/
structure Follows (codes : EventCodes) (base : UInt64) (num : UInt8) (history : List Input)
    (v : OlcbIntVariable) : Prop where
  lt : v.state.toNat < num.toNat
  stateKnown : v.stateKnown = (followed base num history).isSome
  state : v.state.toNat = (followed base num history).getD 0
  rejected : ∀ value, ¬ Accepted num value → v.handle codes (.write value) = ⟨v, [], true⟩
  foreign : ∀ i event, i.event? = some event → ¬ InRange base num event →
    v.handle codes i = ⟨v, [], false⟩
  written : ∀ value, Accepted num value → (v.handle codes (.write value)).messages =
    if v.stateKnown = false ∨ (v.state.toNat : Int) ≠ value.toInt then
      [⟨codes.mti .eventReport, base + UInt64.ofNat value.toInt.toNat⟩] else []
  answeredUnknown : ∀ role event, InRange base num event → v.stateKnown = false →
    (v.handle codes (.identify role event)).messages =
      [⟨codes.mti (.identified role .unknown), event⟩]
  answeredValid : ∀ role event, InRange base num event → v.stateKnown = true →
    event = v.stateEvent → (v.handle codes (.identify role event)).messages =
      [⟨codes.mti (.identified role .valid), event⟩]
  answeredInvalid : ∀ role event, InRange base num event → v.stateKnown = true →
    event ≠ v.stateEvent → (v.handle codes (.identify role event)).messages =
      [⟨codes.mti (.identified role .invalid), event⟩,
        ⟨codes.mti (.identified role .valid), v.stateEvent⟩]
  oneValid : ∀ role event, InRange base num event → v.stateKnown = true →
    validAnswers codes role (v.handle codes (.identify role event)).messages = 1

section Answers

variable {codes v} {base : UInt64} {num : UInt8} {known : Option ℕ}

/-- Both handlers are the same but for the role. -/
theorem handle_identify (role : EventRole) (event : UInt64) :
    v.handle codes (.identify role event) = v.handleIdentify codes role event := by
  cases role <;> rfl

theorem handle_identified (role : EventRole) (event : UInt64) (state : EventState) :
    v.handle codes (.identified role event state) = v.handleConsumerIdentified event state := by
  cases role <;> rfl

/-- An event that is not of the range changes nothing. -/
theorem handle_foreign {i : Input} {event : UInt64} (hi : i.event? = some event)
    (hdecode : v.decodeEvent event = none) : v.handle codes i = ⟨v, [], false⟩ := by
  cases i with
  | eventReport other =>
    cases hi
    simp only [handle, handleEventReport, hdecode]
  | identify role other =>
    cases hi
    rw [handle_identify]
    simp only [handleIdentify, hdecode]
  | identified role other state =>
    cases hi
    rw [handle_identified, handleConsumerIdentified, hdecode]
    split
    · rfl
    · split <;> rfl
  | _ => cases hi

/-- The asked event is that of the state exactly if its offset is the state. -/
theorem Tracks.offset_eq_iff (h : Tracks base num known v)
    (hbase : base.toNat + num.toNat < 2 ^ 64) {event : UInt64} (hevent : InRange base num event)
    {st : UInt8} (hst : st.toNat = event.toNat - base.toNat) :
    st = v.state ↔ event = v.stateEvent := by
  have hlt := h.lt
  obtain ⟨hlow, -⟩ := hevent
  rw [stateEvent, h.eventBase, ← UInt8.toNat_inj, ← UInt64.toNat_inj,
    toNat_add_state hbase (Nat.le_of_lt hlt)]
  omega

/-- The answers to a request, by the state. -/
theorem Tracks.answers (h : Tracks base num known v) (hcodes : codes.Documented)
    (hbase : base.toNat + num.toNat < 2 ^ 64) {event : UInt64} (hevent : InRange base num event)
    (role : EventRole) : (v.handle codes (.identify role event)).messages =
      if v.stateKnown = false then [⟨codes.mti (.identified role .unknown), event⟩]
      else if event = v.stateEvent then [⟨codes.mti (.identified role .valid), event⟩]
      else [⟨codes.mti (.identified role .invalid), event⟩,
        ⟨codes.mti (.identified role .valid), v.stateEvent⟩] := by
  obtain ⟨st, hdecode, hst⟩ := decodeEvent_of_inRange hbase ⟨h.eventBase, h.numStates⟩ hevent
  have hsame := h.offset_eq_iff hbase hevent hst
  rw [handle_identify, handleIdentify, hdecode]
  simp only [← hcodes.identified]
  cases hknown : v.stateKnown with
  | false => simp
  | true =>
    by_cases heq : event = v.stateEvent
    · simp [heq, hsame.mpr heq]
    · have hne : st ≠ v.state := fun hst => heq (hsame.mp hst)
      simp [heq, hne]

end Answers

/-- An integer variable follows the network. -/
theorem follows_network {codes : EventCodes} (hcodes : codes.Documented) {base : UInt64}
    {num : UInt8} (hnum : 1 ≤ num.toNat) (hbase : base.toNat + num.toNat < 2 ^ 64)
    (history : List Input) :
    Follows codes base num history ((init base num).after codes history) := by
  have h := tracks_after codes hbase hnum history
  generalize (init base num).after codes history = v at h
  refine ⟨h.lt, h.stateKnown, h.state, fun value hvalue => write_rejected codes h.numStates hvalue,
    fun i event hi hevent => handle_foreign hi (h.decode_eq_none hbase hevent),
    fun value hvalue => ?_, fun role event hevent hknown => ?_,
    fun role event hevent hknown heq => ?_, fun role event hevent hknown hne => ?_,
    fun role event hevent hknown => ?_⟩
  · obtain ⟨st, hst, hwrite⟩ := write_accepted codes h.numStates hvalue
    have hword : st.toUInt64 = UInt64.ofNat value.toInt.toNat := by
      rw [show value.toInt.toNat = st.toNat by omega, UInt64.ofNat_uInt8ToNat]
    have hdiff : v.state ≠ st ↔ (v.state.toNat : Int) ≠ value.toInt := by
      rw [ne_eq, ← UInt8.toNat_inj]
      omega
    simp only [handle, hwrite, hdiff, h.eventBase, hword]
  · rw [h.answers hcodes hbase hevent, if_pos hknown]
  · rw [h.answers hcodes hbase hevent, if_neg (by simp [hknown]), if_pos heq]
  · rw [h.answers hcodes hbase hevent, if_neg (by simp [hknown]), if_neg hne]
  · rw [h.answers hcodes hbase hevent, if_neg (by simp [hknown])]
    split
    · simp [validAnswers]
    · have hdistinct : codes.mti (.identified role .invalid) ≠
          codes.mti (.identified role .valid) := by
        intro heq
        cases hcodes.injective _ _ heq
      simp [validAnswers, hdistinct]

/-- The numbers of the messages on the bus, and the ranges of eight events. -/
def busCodes : EventCodes where
  mti
    | .eventReport => 0x5B4
    | .consumerIdentify => 0x8F4
    | .identified .consumer .valid => 0x4C4
    | .identified .consumer .invalid => 0x4C5
    | .identified .consumer .reserved => 0x4C6
    | .identified .consumer .unknown => 0x4C7
    | .identified .producer .valid => 0x544
    | .identified .producer .invalid => 0x545
    | .identified .producer .reserved => 0x546
    | .identified .producer .unknown => 0x547
    | .identifiedRange .consumer => 0x4A4
    | .identifiedRange .producer => 0x524
  eventState
    | .valid => 0
    | .invalid => 1
    | .reserved => 2
    | .unknown => 3
  encodeRange base _ := base ||| 7

theorem busCodes_documented : busCodes.Documented := by
  constructor
  case identified =>
    intro role state
    cases role <;> cases state <;> rfl
  case injective =>
    intro m m' h
    rcases m with _ | _ | ⟨_ | _, _ | _ | _ | _⟩ | ⟨_ | _⟩ <;>
      rcases m' with _ | _ | ⟨_ | _, _ | _ | _ | _⟩ | ⟨_ | _⟩ <;>
      first | rfl | exact absurd h (by decide)

/-- Six states: one is recovered from the network, then another is written. -/
theorem sixStates_follow :
    Follows busCodes 0x100 6 [.identified .producer 0x104 .valid, .write 2]
      ((init 0x100 6).after busCodes [.identified .producer 0x104 .valid, .write 2]) :=
  follows_network busCodes_documented (by decide) (by decide) _

end OlcbIntVariable

end OpenmrnCue.Logic
