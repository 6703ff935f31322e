import OpenmrnCue.Library.Trace
import Mathlib.Algebra.Order.Ring.Int

/-! Railcom occupancy reports: `RailcomBroadcastFlow` of `RailcomBroadcastFlow.hxx`.  The flow
handles one railcom feedback at a time, in states between which other threads can run; the track
thread calls `handle_dcc_packet` for every packet sent to the track.  The decoder of channel 1 is
not part of the repository: when the flow asks it, the input of the step says what it answers. -/

namespace OpenmrnCue.CommandStation

/-- What the flow is given: its size, the node and the constants and tables of the DCC library. -/
structure RailcomParams where
  size : Nat
  nodeId : Nat
  /-- `dcc::railcom_decode[b] == RailcomDefs::INV`. -/
  isInvalid : Nat → Bool
  adrMobileShort : Nat
  adrConsistShort : Nat
  maxMobileLong : Nat
  /-- `dcc::DccLongAddress::ADDRESS_MAX`. -/
  longAddressMax : Nat

/-- `dcc::Feedback`, as far as the flow reads it. -/
structure Feedback where
  channel : Nat
  ch1Data : List Nat
  ch2Data : List Nat
  dccAddress : Nat
deriving DecidableEq, Repr

/-- The two addresses of `dcc::RailcomBroadcastDecoder`. -/
structure RailcomDecoder where
  currentAddress : Nat
  lastAddress : Nat
deriving DecidableEq, Repr

/-- `LocoTracker` with its key in the map. -/
structure LocoTracker where
  key : Nat
  count : Nat
deriving DecidableEq, Repr

/-- The states of the flow.  `idle` is the flow that waits for a message. -/
inductive RailcomState where
  | idle
  | entry
  | checkTimeouts
  | sendTimeoutEvent
  | processCh2
  | sendCh2Event
  | processCh1
  | sendInvalid
  | prepareCh1On
  | sendChannelEmpty
  | sendEvent
  | finish
deriving DecidableEq, Repr

/-- `RailcomBroadcastFlow`: the state of the flow with the message it handles and those queued
behind it, its data, and the event reports it has sent.  `trackers` lists the map in the order of
its keys. -/
structure RailcomFlow where
  state : RailcomState
  message : Feedback
  queue : List Feedback
  channels : Nat → RailcomDecoder
  trackers : List LocoTracker
  currentTimeoutKey : Nat
  pendingDeletions : Bool
  channelPendingEmpty : Nat
  events : List Nat

/-- What the decoder does when a state of the flow asks it: the result of `process_packet` and the
current address after it, and the current address of each channel after `set_occupancy`. -/
structure DecoderAnswer where
  accepts : Bool
  address : Nat
  occupied : Nat → Nat

/-- What can happen: a feedback arrives, a DCC packet with these two first bytes is sent to the
track, or the flow runs its current state. -/
inductive RailcomInput where
  | arrive (message : Feedback)
  | dccPacket (b0 b1 : Nat)
  | flow (answer : DecoderAnswer)

namespace RailcomParams

/-- `event_base`. -/
def eventBase (params : RailcomParams) : Nat :=
  (0x0680 <<< 48) ||| (((params.nodeId >>> 24) &&& 0x0FFF) <<< 40) |||
    ((params.nodeId &&& 0xFFFFF) <<< 20)

/-- `address_to_eventid`. -/
def addressToEventid (params : RailcomParams) (channel address : Nat) (entry : Bool) : Nat :=
  params.eventBase ||| ((channel &&& 0xf) <<< 16) |||
    ((if entry then 0xC000 else 0) ||| (address &&& 0x3FFF))

/-- `dcc_to_address`, of two bytes. -/
def dccToAddress (params : RailcomParams) (b0 b1 : Nat) : Nat :=
  let b0 := b0 % 2 ^ 8
  let b1 := b1 % 2 ^ 8
  if b0 = 0 ∨ b0 = 0xFF then 0xFFFF
  else if 0xC0 ≤ b0 ∧ b0 ≤ (0xC0 ||| params.maxMobileLong) then ((b0 &&& 0x3F) <<< 8) ||| b1
  else if b0 &&& 0x80 = 0 then b0 ||| (params.adrMobileShort <<< 8)
  else 0xFFFF

/-- `railcom_id12_to_address`. -/
def railcomId12ToAddress (params : RailcomParams) (address : Nat) : Nat :=
  if address &&& 0x6000 = 0x6000 then (address &&& 0x7F) ||| (params.adrConsistShort <<< 8)
  else if 127 < address &&& 0x3FFF ∨ address &&& 0xC000 = 0x8000 then
    min (address &&& 0x3FFF) params.longAddressMax
  else (address &&& 0x7F) ||| (params.adrMobileShort <<< 8)

/-- The short address 0, which stands for an empty channel. -/
def emptyAddress (params : RailcomParams) : Nat := params.adrMobileShort <<< 8

end RailcomParams

namespace LocoTracker

def maxCount : Nat := 10

/-- `report_loco_seen`. -/
def seenCount (count : Nat) : Nat := if count ≤ maxCount - 2 then count + 2 else maxCount

/-- `report_loco_addressed`: the tracker after it, and whether the count reached zero. -/
def reportLocoAddressed (tracker : LocoTracker) : LocoTracker × Bool :=
  if 0 < tracker.count then
    ({ tracker with count := tracker.count - 1 }, decide (tracker.count - 1 = 0))
  else (tracker, false)

/-- A new entry of the map, in the order of the keys. -/
def insert (tracker : LocoTracker) : List LocoTracker → List LocoTracker
  | [] => [tracker]
  | other :: rest =>
    if tracker.key < other.key then tracker :: other :: rest else other :: insert tracker rest

end LocoTracker

/-- The key of a locomotive on a channel. -/
def trackerKey (address channel : Nat) : Nat := (address <<< 16) ||| channel

/-- The message that the flow sends itself when an occupancy report changed an address. -/
def fakeFeedback (channel : Nat) : Feedback :=
  { channel := channel, ch1Data := [], ch2Data := [], dccAddress := 0xFF00 }

namespace RailcomFlow

/-- The flow after construction. -/
def start : RailcomFlow where
  state := .idle
  message := fakeFeedback 0
  queue := []
  channels := fun _ => ⟨0, 0⟩
  trackers := []
  currentTimeoutKey := 0
  pendingDeletions := false
  channelPendingEmpty := 0
  events := []

/-- `trackers_.find`. -/
def tracker? (s : RailcomFlow) (key : Nat) : Option LocoTracker :=
  s.trackers.find? (·.key = key)

/-- `num_loco_in_channel_locked`. -/
def numLocoInChannel (s : RailcomFlow) (channel : Nat) : Nat :=
  s.trackers.countP (fun tracker => tracker.key &&& 0xffff = channel)

/-- `handle_dcc_packet`.  The entries from `lower_bound` on that have the address are all entries
that have it. -/
def handleDccPacket (params : RailcomParams) (s : RailcomFlow) (b0 b1 : Nat) : RailcomFlow :=
  let address := params.dccToAddress b0 b1
  if address = 0xFFFF then s
  else
    { s with
      trackers := s.trackers.map fun tracker =>
        if tracker.key >>> 16 = address then tracker.reportLocoAddressed.1 else tracker
      pendingDeletions := s.pendingDeletions || s.trackers.any fun tracker =>
        tracker.key >>> 16 = address && tracker.reportLocoAddressed.2 }

/-- The address of the decoder of a channel after the library changed it. -/
def setCurrentAddress (s : RailcomFlow) (channel address : Nat) : RailcomFlow :=
  { s with channels := fun other =>
      if other = channel then { s.channels channel with currentAddress := address }
      else s.channels other }

/-- `decoder.lastAddress_ = decoder.current_address()`. -/
def keepAddress (s : RailcomFlow) (channel : Nat) : RailcomFlow :=
  { s with channels := fun other =>
      if other = channel then
        { s.channels channel with lastAddress := (s.channels channel).currentAddress }
      else s.channels other }

/-- The loop over the channels for an occupancy report. -/
def occupancy (answer : DecoderAnswer) (s : RailcomFlow) (channel : Nat) : RailcomFlow :=
  let s := s.setCurrentAddress channel (answer.occupied channel)
  if (s.channels channel).currentAddress ≠ (s.channels channel).lastAddress then
    { s with queue := s.queue ++ [fakeFeedback channel] }
  else s

/-- `entry`. -/
def entry (params : RailcomParams) (answer : DecoderAnswer) (s : RailcomFlow) : RailcomFlow :=
  if s.pendingDeletions then { s with currentTimeoutKey := 0, state := .checkTimeouts }
  else if s.message.channel = 0xff then
    { (List.range params.size).foldl (occupancy answer) s with state := .idle }
  else if s.message.channel = 0xfe then { s with state := .idle }
  else { s with state := .processCh2 }

/-- `check_timeouts`. -/
def checkTimeouts (s : RailcomFlow) : RailcomFlow :=
  if !s.pendingDeletions then { s with state := .entry }
  else
    let lastChannel := s.currentTimeoutKey &&& 0xffff
    if s.currentTimeoutKey ≠ 0 ∧ s.channelPendingEmpty.testBit lastChannel ∧
        s.numLocoInChannel lastChannel = 0 then
      { s with state := .sendChannelEmpty }
    else
      match s.trackers.find? (fun tracker =>
          s.currentTimeoutKey ≤ tracker.key && tracker.count = 0) with
      | some tracker =>
        { s with
          currentTimeoutKey := tracker.key
          trackers := s.trackers.filter (·.key ≠ tracker.key)
          state := .sendTimeoutEvent }
      | none => { s with pendingDeletions := false, currentTimeoutKey := 0, state := .entry }

/-- Sends an event report. -/
def send (params : RailcomParams) (s : RailcomFlow) (channel address : Nat) (entry : Bool) :
    RailcomFlow :=
  { s with events := s.events ++ [params.addressToEventid channel address entry] }

/-- `send_timeout_event`. -/
def sendTimeoutEvent (params : RailcomParams) (s : RailcomFlow) : RailcomFlow :=
  { s.send params (s.currentTimeoutKey &&& 0xFFFF) (s.currentTimeoutKey >>> 16) false with
    state := .checkTimeouts }

/-- A bit of `channel_pending_empty_`, set and cleared. -/
def setPendingEmpty (s : RailcomFlow) (channel : Nat) : RailcomFlow :=
  { s with channelPendingEmpty := (s.channelPendingEmpty ||| (1 <<< channel)) % 2 ^ 16 }

def clearPendingEmpty (s : RailcomFlow) (channel : Nat) : RailcomFlow :=
  { s with channelPendingEmpty :=
      if s.channelPendingEmpty.testBit channel then s.channelPendingEmpty - (1 <<< channel)
      else s.channelPendingEmpty }

/-- `send_channel_empty`. -/
def sendChannelEmpty (params : RailcomParams) (s : RailcomFlow) : RailcomFlow :=
  let channel := s.currentTimeoutKey &&& 0xffff
  { (s.send params channel params.emptyAddress true).clearPendingEmpty channel with
    state := .checkTimeouts }

/-- `process_ch2`. -/
def processCh2 (params : RailcomParams) (s : RailcomFlow) : RailcomFlow :=
  let msg := s.message
  let address := params.dccToAddress (msg.dccAddress >>> 8) (msg.dccAddress &&& 0xFF)
  if params.size ≤ msg.channel ∨ msg.ch2Data = [] ∨ msg.ch2Data.any params.isInvalid ∨
      address = 0xFFFF then
    { s with state := .processCh1 }
  else
    let key := trackerKey address msg.channel
    match s.tracker? key with
    | none =>
      { s with
        trackers := LocoTracker.insert
          ⟨key, LocoTracker.seenCount (LocoTracker.seenCount 0)⟩ s.trackers
        currentTimeoutKey := key
        state := .sendCh2Event }
    | some _ =>
      { s with
        trackers := s.trackers.map fun tracker =>
          if tracker.key = key then ⟨key, LocoTracker.seenCount tracker.count⟩ else tracker
        state := .processCh1 }

/-- `send_ch2_event`. -/
def sendCh2Event (params : RailcomParams) (s : RailcomFlow) : RailcomFlow :=
  { s.send params (s.currentTimeoutKey &&& 0xffff) (s.currentTimeoutKey >>> 16) true with
    state := .processCh1 }

/-- `process_ch1`. -/
def processCh1 (params : RailcomParams) (answer : DecoderAnswer) (s : RailcomFlow) : RailcomFlow :=
  let channel := s.message.channel
  if params.size ≤ channel ∨ !answer.accepts then { s with state := .idle }
  else
    let s := s.setCurrentAddress channel answer.address
    let decoder := s.channels channel
    if decoder.currentAddress = decoder.lastAddress then { s with state := .idle }
    else
      let key := trackerKey (params.railcomId12ToAddress decoder.lastAddress) channel
      if (s.tracker? key).any (0 < ·.count) then { s with state := .prepareCh1On }
      else if decoder.lastAddress = 0 ∧ s.channelPendingEmpty.testBit channel then
        { s.clearPendingEmpty channel with state := .prepareCh1On }
      else { s with state := .sendInvalid }

/-- `send_invalid`. -/
def sendInvalid (params : RailcomParams) (s : RailcomFlow) : RailcomFlow :=
  let channel := s.message.channel
  let address := params.railcomId12ToAddress (s.channels channel).lastAddress
  { s.send params channel address false with state := .prepareCh1On }

/-- `prepare_ch1_on`. -/
def prepareCh1On (s : RailcomFlow) : RailcomFlow :=
  let channel := s.message.channel
  if (s.channels channel).currentAddress = 0 ∧ 0 < s.numLocoInChannel channel then
    { (s.setPendingEmpty channel).keepAddress channel with state := .idle }
  else { s with state := .sendEvent }

/-- `send_event`. -/
def sendEvent (params : RailcomParams) (s : RailcomFlow) : RailcomFlow :=
  let channel := s.message.channel
  let address := params.railcomId12ToAddress (s.channels channel).currentAddress
  { (s.send params channel address true).keepAddress channel with state := .finish }

/-- The flow runs its current state.  An idle flow takes the next message. -/
def runState (params : RailcomParams) (answer : DecoderAnswer) (s : RailcomFlow) :
    Option RailcomFlow :=
  match s.state with
  | .idle =>
    match s.queue with
    | [] => none
    | message :: rest => some { s with message := message, queue := rest, state := .entry }
  | .entry => some (s.entry params answer)
  | .checkTimeouts => some s.checkTimeouts
  | .sendTimeoutEvent => some (s.sendTimeoutEvent params)
  | .processCh2 => some (s.processCh2 params)
  | .sendCh2Event => some (s.sendCh2Event params)
  | .processCh1 => some (s.processCh1 params answer)
  | .sendInvalid => some (s.sendInvalid params)
  | .prepareCh1On => some s.prepareCh1On
  | .sendChannelEmpty => some (s.sendChannelEmpty params)
  | .sendEvent => some (s.sendEvent params)
  | .finish => some { s with state := .idle }

/-- One step of the flow or of the threads around it. -/
def step (params : RailcomParams) (s : RailcomFlow) : RailcomInput → Option RailcomFlow
  | .arrive message => some { s with queue := s.queue ++ [message] }
  | .dccPacket b0 b1 => some (s.handleDccPacket params b0 b1)
  | .flow answer => s.runState params answer

/-! What the states with several branches can do. -/

theorem entry_cases (params : RailcomParams) (answer : DecoderAnswer) (s : RailcomFlow) :
    (s.pendingDeletions = true ∧
      s.entry params answer = { s with currentTimeoutKey := 0, state := .checkTimeouts }) ∨
    (s.pendingDeletions = false ∧ s.entry params answer =
      { (List.range params.size).foldl (occupancy answer) s with state := .idle }) ∨
    (s.pendingDeletions = false ∧ s.message.channel = 0xfe ∧
      s.entry params answer = { s with state := .idle }) ∨
    (s.pendingDeletions = false ∧ s.entry params answer = { s with state := .processCh2 }) := by
  unfold entry
  split_ifs with hpending _ hovercurrent
  · exact Or.inl ⟨hpending, rfl⟩
  · exact Or.inr (Or.inl ⟨by simpa using hpending, rfl⟩)
  · exact Or.inr (Or.inr (Or.inl ⟨by simpa using hpending, hovercurrent, rfl⟩))
  · exact Or.inr (Or.inr (Or.inr ⟨by simpa using hpending, rfl⟩))

/-- What the scan looks for: a tracker at zero, from the saved key on. -/
def isExpired (s : RailcomFlow) (tracker : LocoTracker) : Bool :=
  s.currentTimeoutKey ≤ tracker.key && tracker.count = 0

theorem checkTimeouts_cases (s : RailcomFlow) :
    (s.pendingDeletions = false ∧ s.checkTimeouts = { s with state := .entry }) ∨
    (s.pendingDeletions = true ∧ s.checkTimeouts = { s with state := .sendChannelEmpty }) ∨
    (∃ tracker, s.pendingDeletions = true ∧ s.trackers.find? s.isExpired = some tracker ∧
      s.checkTimeouts = { s with
        currentTimeoutKey := tracker.key
        trackers := s.trackers.filter (·.key ≠ tracker.key)
        state := .sendTimeoutEvent }) ∨
    (s.trackers.find? s.isExpired = none ∧ s.checkTimeouts =
      { s with pendingDeletions := false, currentTimeoutKey := 0, state := .entry }) := by
  unfold checkTimeouts
  simp only
  split_ifs with hpending
  · exact Or.inl ⟨by simpa using hpending, rfl⟩
  · exact Or.inr (Or.inl ⟨by simpa using hpending, rfl⟩)
  · split
    · next tracker hfound =>
      exact Or.inr (Or.inr (Or.inl ⟨tracker, by simpa using hpending, hfound, rfl⟩))
    · next hnone => exact Or.inr (Or.inr (Or.inr ⟨hnone, rfl⟩))

theorem processCh2_cases (params : RailcomParams) (s : RailcomFlow) :
    s.processCh2 params = { s with state := .processCh1 } ∨
    ∃ address key, params.dccToAddress (s.message.dccAddress >>> 8) (s.message.dccAddress &&& 0xFF) =
        address ∧ address ≠ 0xFFFF ∧ s.message.channel < params.size ∧
      key = trackerKey address s.message.channel ∧
      ((s.tracker? key = none ∧ s.processCh2 params = { s with
          trackers := LocoTracker.insert
            ⟨key, LocoTracker.seenCount (LocoTracker.seenCount 0)⟩ s.trackers
          currentTimeoutKey := key
          state := .sendCh2Event }) ∨
        ∃ tracker, s.tracker? key = some tracker ∧ s.processCh2 params = { s with
          trackers := s.trackers.map fun tracker =>
            if tracker.key = key then ⟨key, LocoTracker.seenCount tracker.count⟩ else tracker
          state := .processCh1 }) := by
  unfold processCh2
  simp only
  split_ifs with hskip
  · exact Or.inl rfl
  · simp only [not_or, Nat.not_le] at hskip
    refine Or.inr ⟨_, _, rfl, hskip.2.2.2, hskip.1, rfl, ?_⟩
    split
    · next hnone => exact Or.inl ⟨hnone, rfl⟩
    · next tracker hfound => exact Or.inr ⟨tracker, hfound, rfl⟩

theorem processCh1_cases (params : RailcomParams) (answer : DecoderAnswer) (s : RailcomFlow) :
    let channel := s.message.channel
    let last := (s.channels channel).lastAddress
    let key := trackerKey (params.railcomId12ToAddress last) channel
    let s' := s.setCurrentAddress channel answer.address
    ((params.size ≤ channel ∨ answer.accepts = false) ∧
      s.processCh1 params answer = { s with state := .idle }) ∨
    (channel < params.size ∧ answer.accepts = true ∧
      ((answer.address = last ∧ s.processCh1 params answer = { s' with state := .idle }) ∨
        (answer.address ≠ last ∧
          (((∃ tracker, s.tracker? key = some tracker ∧ 0 < tracker.count) ∧
              s.processCh1 params answer = { s' with state := .prepareCh1On }) ∨
            (last = 0 ∧ s.processCh1 params answer =
              { s'.clearPendingEmpty channel with state := .prepareCh1On }) ∨
            ((∀ tracker, s.tracker? key = some tracker → tracker.count = 0) ∧
              s.processCh1 params answer = { s' with state := .sendInvalid }))))) := by
  intro channel last key s'
  have hcurrent : (s'.channels channel).currentAddress = answer.address := by
    simp [s', setCurrentAddress]
  have hlast : (s'.channels channel).lastAddress = last := by simp [s', setCurrentAddress, last]
  unfold processCh1
  simp only
  rw [show (s.setCurrentAddress s.message.channel answer.address) = s' from rfl,
    show s.message.channel = channel from rfl, hcurrent, hlast]
  split_ifs with hskip hsame htracked hempty
  · exact Or.inl ⟨by simpa using hskip, rfl⟩
  all_goals
    simp only [not_or, Nat.not_le, Bool.not_eq_true', Bool.not_eq_false] at hskip
    refine Or.inr ⟨hskip.1, hskip.2, ?_⟩
  · exact Or.inl ⟨hsame, rfl⟩
  · refine Or.inr ⟨hsame, Or.inl ⟨?_, rfl⟩⟩
    obtain ⟨tracker, hfound, hcount⟩ := (Option.any_eq_true _ _).mp htracked
    exact ⟨tracker, hfound, by simpa using hcount⟩
  · exact Or.inr ⟨hsame, Or.inr (Or.inl ⟨hempty.1, rfl⟩)⟩
  · refine Or.inr ⟨hsame, Or.inr (Or.inr ⟨?_, rfl⟩)⟩
    intro tracker hfound
    have hfound' : s'.tracker? key = some tracker := hfound
    rw [hfound'] at htracked
    simpa using htracked

end RailcomFlow

end OpenmrnCue.CommandStation
