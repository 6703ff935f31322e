import Mathlib.Data.List.TakeWhile
import OpenmrnCue.CommandStation.RailcomPresence

/-! What the railcom flow answers when it is asked: `has_railcom_entry`, which looks at a bit mask
of the empty channels, and `handle_identify_producer`.  The mask is computed by the timeout scan. -/

namespace OpenmrnCue.CommandStation

/-- The flow with the two bit masks of empty channels.  `scanned` is a history variable: the
trackers when the last timeout scan ended. -/
structure RailcomStatus where
  flow : RailcomFlow
  channelIsEmpty : BitVec 16
  newChannelIsEmpty : BitVec 16
  scanned : List LocoTracker

namespace RailcomStatus

def start : RailcomStatus where
  flow := .start
  channelIsEmpty := 0xffff
  newChannelIsEmpty := 0
  scanned := []

/-- The channel of a tracker. -/
def channelOf (tracker : LocoTracker) : Nat := tracker.key &&& 0xffff

/-- `mask &= ~(1u << channel)`. -/
def clearBit (mask : BitVec 16) (tracker : LocoTracker) : BitVec 16 :=
  mask &&& ~~~((1 : BitVec 16) <<< channelOf tracker)

/-- What `check_timeouts` does with the masks. -/
def checkTimeouts (params : RailcomParams) (s : RailcomStatus) : RailcomStatus :=
  let flow := s.flow
  if !flow.pendingDeletions then s
  else
    let mask : BitVec 16 :=
      if flow.currentTimeoutKey = 0 then .ofNat 16 (2 ^ params.size - 1) else s.newChannelIsEmpty
    let lastChannel := flow.currentTimeoutKey &&& 0xffff
    if flow.currentTimeoutKey ≠ 0 ∧ flow.channelPendingEmpty.testBit lastChannel ∧
        flow.numLocoInChannel lastChannel = 0 then
      { s with newChannelIsEmpty := mask }
    else
      let ahead := flow.trackers.filter (flow.currentTimeoutKey ≤ ·.key)
      let mask := (ahead.takeWhile (·.count ≠ 0)).foldl clearBit mask
      if ahead.any (·.count = 0) then { s with newChannelIsEmpty := mask }
      else { s with newChannelIsEmpty := mask, channelIsEmpty := mask, scanned := flow.trackers }

/-- A step of the flow, with the masks. -/
def step (params : RailcomParams) (s : RailcomStatus) (input : RailcomInput) :
    Option RailcomStatus :=
  (s.flow.step params input).map fun flow =>
    match input, s.flow.state with
    | .flow _, .checkTimeouts => { s.checkTimeouts params with flow }
    | _, _ => { s with flow }

/-- `has_railcom_entry`. -/
def hasRailcomEntry (s : RailcomStatus) (channel : Nat) : Bool :=
  (s.flow.channels channel).currentAddress != 0 || !s.channelIsEmpty.getLsbD channel

end RailcomStatus

/-- `MTI_PRODUCER_IDENTIFIED_VALID` and `MTI_PRODUCER_IDENTIFIED_INVALID`, with the event. -/
inductive ProducerIdentified
  | valid (event : Nat)
  | invalid (event : Nat)
  deriving DecidableEq, Repr

/-- `handle_identify_producer`: the messages that are sent. -/
def RailcomFlow.handleIdentifyProducer (params : RailcomParams) (s : RailcomFlow) (event : Nat) :
    List ProducerIdentified :=
  if event < params.eventBase then []
  else
    let channel := ((event - params.eventBase) >>> 16) % 2 ^ 32
    if params.size ≤ channel then []
    else
      let query := event &&& 0xFFFF
      let actual := params.railcomId12ToAddress (s.channels channel).lastAddress
      if query = 0 then
        (if actual ≠ 0 ∧ actual ≠ 0xFFFF then
          [.valid (params.addressToEventid channel actual true)] else []) ++
        (s.trackers.filter (·.key &&& 0xFFFF = channel)).map fun tracker =>
          .valid (params.addressToEventid channel (tracker.key >>> 16) true)
      else
        let found := actual = query ∨
          (s.tracker? (trackerKey query channel)).any (0 < ·.count) = true
        let queryEvent := params.addressToEventid channel query true
        [if found then .valid queryEvent else .invalid queryEvent]

/-- The addresses that `dcc_to_address` takes for mobile decoders. -/
def RailcomParams.IsMobile (params : RailcomParams) (address : Nat) : Prop :=
  ∃ b0 b1, params.dccToAddress b0 b1 = address ∧ address ≠ 0xFFFF


namespace RailcomFlow

/-- The keys of the trackers. -/
def keys (s : RailcomFlow) : List Nat := s.trackers.map (·.key)

section
variable {params : RailcomParams} {s s' : RailcomFlow}

variable (params) in
theorem keys_handleDccPacket (b0 b1 : Nat) : (s.handleDccPacket params b0 b1).keys = s.keys := by
  unfold handleDccPacket
  simp only
  split_ifs
  · rfl
  · simp [keys, addressed_key]

variable (params) in
/-- A channel 2 reply leaves the keys alone or adds that of a mobile decoder. -/
theorem keys_processCh2 :
    (s.processCh2 params).keys = s.keys ∨
    ∃ address channel count, params.IsMobile address ∧ channel < params.size ∧
      trackerKey address channel ∉ s.keys ∧
      (s.processCh2 params).trackers =
        LocoTracker.insert ⟨trackerKey address channel, count⟩ s.trackers := by
  rcases processCh2_cases params s with
    heq | ⟨address, key, haddress, hvalid, hchannel, hkey, ⟨hnone, heq⟩ | ⟨_, -, heq⟩⟩
  · exact Or.inl (by rw [heq]; rfl)
  · refine Or.inr ⟨address, s.message.channel, LocoTracker.seenCount (LocoTracker.seenCount 0),
      ⟨_, _, haddress, hvalid⟩, hchannel, ?_, ?_⟩
    · intro hmem
      obtain ⟨tracker, htracker, hsame⟩ := List.mem_map.mp hmem
      exact List.find?_eq_none.mp hnone tracker htracker (by simpa [hkey] using hsame)
    · rw [heq, hkey]
  · refine Or.inl ?_
    rw [heq]
    simp only [keys, List.map_map]
    refine List.map_congr_left fun tracker _ => ?_
    simp only [Function.comp_apply]
    split_ifs with hthis
    · exact hthis.symm
    · rfl

/-- The states of the flow other than `check_timeouts` and `process_ch2` leave the keys alone. -/
theorem keys_runState {answer : DecoderAnswer} (hrun : s.runState params answer = some s')
    (hscan : s.state ≠ .checkTimeouts) (hch2 : s.state ≠ .processCh2) : s'.keys = s.keys := by
  unfold runState at hrun
  cases hstate : s.state <;> simp only [hstate] at hrun
  case idle =>
    split at hrun <;> cases hrun
    rfl
  case entry =>
    cases hrun
    rcases entry_cases params answer s with ⟨-, heq⟩ | ⟨-, heq⟩ | ⟨-, -, heq⟩ | ⟨-, heq⟩ <;> rw [heq]
    · rfl
    · simp only [keys, (occupancy_frame answer s (List.range params.size)).1]
    · rfl
    · rfl
  case checkTimeouts => exact absurd hstate hscan
  case processCh2 => exact absurd hstate hch2
  case processCh1 =>
    cases hrun
    unfold processCh1
    simp only
    split_ifs <;> rfl
  case prepareCh1On =>
    cases hrun
    unfold prepareCh1On
    simp only
    split_ifs <;> rfl
  all_goals
    cases hrun
    rfl

/-- The other states enter the cycle of the scan at its start only, and leave it in no case. -/
theorem cycle_runState {answer : DecoderAnswer} (hrun : s.runState params answer = some s')
    (hscan : s.state ≠ .checkTimeouts) (hch2 : s.state ≠ .processCh2) :
    (s'.inCycle = true → (s'.pendingDeletions = true ∧ s'.currentTimeoutKey = 0) ∨
      (s.inCycle = true ∧ s'.pendingDeletions = s.pendingDeletions ∧
        s'.currentTimeoutKey = s.currentTimeoutKey)) ∧
    (s'.inCycle = false → s.inCycle = false) := by
  have hleave : ∀ {t : RailcomFlow}, s.inCycle = false → t.inCycle = false →
      (t.inCycle = true → (t.pendingDeletions = true ∧ t.currentTimeoutKey = 0) ∨
        (s.inCycle = true ∧ t.pendingDeletions = s.pendingDeletions ∧
          t.currentTimeoutKey = s.currentTimeoutKey)) ∧
      (t.inCycle = false → s.inCycle = false) :=
    fun hs ht => ⟨fun hin => absurd (ht.symm.trans hin) (by decide), fun _ => hs⟩
  unfold runState at hrun
  cases hstate : s.state <;> simp only [hstate] at hrun
  case idle =>
    split at hrun <;> cases hrun
    exact hleave (by simp [inCycle, hstate]) rfl
  case entry =>
    have hs : s.inCycle = false := by simp [inCycle, hstate]
    cases hrun
    rcases entry_cases params answer s with ⟨hpending, heq⟩ | ⟨-, heq⟩ | ⟨-, -, heq⟩ | ⟨-, heq⟩ <;>
      rw [heq]
    · exact ⟨fun _ => Or.inl ⟨hpending, rfl⟩, fun _ => hs⟩
    · exact hleave hs rfl
    · exact hleave hs rfl
    · exact hleave hs rfl
  case checkTimeouts => exact absurd hstate hscan
  case processCh2 => exact absurd hstate hch2
  case processCh1 =>
    cases hrun
    unfold processCh1
    simp only
    split_ifs <;> exact hleave (by simp [inCycle, hstate]) rfl
  case prepareCh1On =>
    cases hrun
    unfold prepareCh1On
    simp only
    split_ifs <;> exact hleave (by simp [inCycle, hstate]) rfl
  case sendTimeoutEvent | sendChannelEmpty =>
    cases hrun
    exact ⟨fun _ => Or.inr ⟨by simp [inCycle, hstate], rfl, rfl⟩, fun hout => by
      simp [inCycle, sendTimeoutEvent, sendChannelEmpty] at hout⟩
  all_goals
    cases hrun
    exact hleave (by simp [inCycle, hstate]) rfl

end

end RailcomFlow

namespace RailcomStatus

open RailcomFlow (isExpired)

/-- The mask has the bits of the channels without a key. -/
def Empties (size : Nat) (mask : BitVec 16) (keys : List Nat) : Prop :=
  ∀ channel < size, mask.getLsbD channel = true ↔ ∀ key ∈ keys, key &&& 0xffff ≠ channel

theorem Empties.congr {size : Nat} {mask : BitVec 16} {keys keys' : List Nat}
    (h : Empties size mask keys) (hsame : ∀ key, key ∈ keys' ↔ key ∈ keys) :
    Empties size mask keys' := by
  intro channel hchannel
  rw [h channel hchannel]
  simp only [hsame]

theorem empties_full {size : Nat} (hsize : size ≤ 16) :
    Empties size (.ofNat 16 (2 ^ size - 1)) [] := by
  intro channel hchannel
  simp [BitVec.getLsbD_ofNat, Nat.testBit_two_pow_sub_one, hchannel, Nat.lt_of_lt_of_le hchannel hsize]

theorem getLsbD_clearBit (mask : BitVec 16) (tracker : LocoTracker) {channel : Nat}
    (hchannel : channel < 16) :
    (clearBit mask tracker).getLsbD channel = true ↔
      mask.getLsbD channel = true ∧ tracker.key &&& 0xffff ≠ channel := by
  have hone : ((1 : BitVec 16) <<< channelOf tracker).getLsbD channel =
      decide (channelOf tracker = channel) := by
    rw [BitVec.getLsbD_shiftLeft]
    by_cases hlt : channel < channelOf tracker
    · have hne : channelOf tracker ≠ channel := by omega
      simp [hlt, hne]
    · rcases Nat.eq_or_lt_of_le (Nat.le_of_not_lt hlt) with heq | hgt
      · simp [heq, hchannel]
      · have hne : channelOf tracker ≠ channel := by omega
        have hpos : channel - channelOf tracker ≠ 0 := by omega
        simp [hne, hpos]
  rw [clearBit, BitVec.getLsbD_and, BitVec.getLsbD_not, hone, channelOf, Bool.and_eq_true]
  refine and_congr_right fun _ => ?_
  simp only [hchannel, decide_true, Bool.true_and, Bool.not_eq_true', decide_eq_false_iff_not, ne_eq]

/-- The loop of the scan clears the bits of the trackers it passes. -/
theorem Empties.clearBits {size : Nat} (hsize : size ≤ 16) {mask : BitVec 16} {keys : List Nat}
    (h : Empties size mask keys) (trackers : List LocoTracker) :
    Empties size (trackers.foldl clearBit mask) (keys ++ trackers.map (·.key)) := by
  induction trackers generalizing mask keys with
  | nil => simpa using h
  | cons tracker rest ih =>
    have hone : Empties size (clearBit mask tracker) (keys ++ [tracker.key]) := by
      intro channel hchannel
      rw [getLsbD_clearBit mask tracker (Nat.lt_of_lt_of_le hchannel hsize), h channel hchannel]
      simp [or_imp, forall_and]
    simpa using ih hone

section
variable {params : RailcomParams} {s s' : RailcomStatus}

/-- The mask with which a run of `check_timeouts` goes on. -/
def scanMask (params : RailcomParams) (s : RailcomStatus) : BitVec 16 :=
  if s.flow.currentTimeoutKey = 0 then .ofNat 16 (2 ^ params.size - 1) else s.newChannelIsEmpty

/-- The trackers from the saved key on. -/
def ahead (s : RailcomStatus) : List LocoTracker :=
  s.flow.trackers.filter (s.flow.currentTimeoutKey ≤ ·.key)

theorem find?_ahead (s : RailcomStatus) :
    s.ahead.find? (·.count = 0) = s.flow.trackers.find? s.flow.isExpired := by
  rw [ahead, List.find?_filter]
  congr 1
  funext tracker
  simp [isExpired]

variable (params) in
theorem checkTimeouts_cases (hpending : s.flow.pendingDeletions = true) :
    (s.flow.currentTimeoutKey ≠ 0 ∧
      s.flow.checkTimeouts = { s.flow with state := .sendChannelEmpty } ∧
      s.checkTimeouts params = s) ∨
    (∃ found, s.ahead.find? (·.count = 0) = some found ∧
      s.flow.checkTimeouts = { s.flow with
        currentTimeoutKey := found.key
        trackers := s.flow.trackers.filter (·.key ≠ found.key)
        state := .sendTimeoutEvent } ∧
      s.checkTimeouts params = { s with
        newChannelIsEmpty := (s.ahead.takeWhile (·.count ≠ 0)).foldl clearBit (s.scanMask params) }) ∨
    (s.ahead.find? (·.count = 0) = none ∧
      s.flow.checkTimeouts = { s.flow with
        pendingDeletions := false, currentTimeoutKey := 0, state := .entry } ∧
      s.checkTimeouts params = { s with
        newChannelIsEmpty := s.ahead.foldl clearBit (s.scanMask params)
        channelIsEmpty := s.ahead.foldl clearBit (s.scanMask params)
        scanned := s.flow.trackers }) := by
  have hflow : s.flow.checkTimeouts = _ := RailcomFlow.checkTimeouts.eq_1 s.flow
  have hmask : s.checkTimeouts params = _ := checkTimeouts.eq_1 params s
  have hnot : ¬ (!s.flow.pendingDeletions) = true := by simp [hpending]
  rw [if_neg hnot] at hflow hmask
  by_cases hempty : s.flow.currentTimeoutKey ≠ 0 ∧
      s.flow.channelPendingEmpty.testBit (s.flow.currentTimeoutKey &&& 0xffff) ∧
      s.flow.numLocoInChannel (s.flow.currentTimeoutKey &&& 0xffff) = 0
  · refine Or.inl ⟨hempty.1, hflow.trans (if_pos hempty), ?_⟩
    refine (hmask.trans (if_pos hempty)).trans ?_
    rw [if_neg hempty.1]
  · replace hflow := hflow.trans (if_neg hempty)
    replace hmask := hmask.trans (if_neg hempty)
    cases hfound : s.ahead.find? (·.count = 0) with
    | some found =>
      have hany : s.ahead.any (·.count = 0) = true := by
        obtain ⟨hzero, front, back, heq, -⟩ := List.find?_eq_some_iff_append.mp hfound
        exact List.any_eq_true.mpr ⟨found, by simp [heq], hzero⟩
      have hfound' := hfound
      rw [find?_ahead] at hfound'
      unfold RailcomFlow.isExpired at hfound'
      refine Or.inr (Or.inl ⟨found, rfl, ?_, ?_⟩)
      · refine hflow.trans ?_
        rw [hfound']
      · exact hmask.trans (if_pos hany)
    | none =>
      have hnone := List.find?_eq_none.mp hfound
      have hany : ¬ s.ahead.any (·.count = 0) = true := by
        rw [List.any_eq_true]
        rintro ⟨tracker, hmem, hzero⟩
        exact hnone tracker hmem hzero
      have hall : s.ahead.takeWhile (·.count ≠ 0) = s.ahead := by
        rw [List.takeWhile_eq_self_iff]
        intro tracker hmem
        simpa using hnone tracker hmem
      have hfound' := hfound
      rw [find?_ahead] at hfound'
      unfold RailcomFlow.isExpired at hfound'
      refine Or.inr (Or.inr ⟨rfl, ?_, ?_⟩)
      · refine hflow.trans ?_
        rw [hfound']
      · refine (hmask.trans (if_neg hany)).trans ?_
        change RailcomStatus.mk _ ((s.ahead.takeWhile (·.count ≠ 0)).foldl clearBit
          (s.scanMask params)) ((s.ahead.takeWhile (·.count ≠ 0)).foldl clearBit
          (s.scanMask params)) _ = _
        rw [hall]

/-- The key of a mobile decoder on one of the channels. -/
def MobileKey (params : RailcomParams) (key : Nat) : Prop :=
  ∃ address channel, params.IsMobile address ∧ channel < params.size ∧
    key = trackerKey address channel

/-- The invariant of the runs.  Within the cycle of the scan the new mask tells of the trackers that
the scan has passed; the other mask tells of the trackers that the last scan left. -/
structure Masked (params : RailcomParams) (s : RailcomStatus) : Prop where
  sorted : s.flow.keys.Pairwise (· < ·)
  mobile : ∀ key ∈ s.flow.keys, MobileKey params key
  pending : s.flow.inCycle = true → s.flow.pendingDeletions = true
  scanning : s.flow.inCycle = true → s.flow.currentTimeoutKey ≠ 0 →
    Empties params.size s.newChannelIsEmpty
      (s.flow.keys.filter (· < s.flow.currentTimeoutKey))
  empty : Empties params.size s.channelIsEmpty (s.scanned.map (·.key))
  kept : s.flow.inCycle = false → ∀ tracker ∈ s.scanned, tracker.key ∈ s.flow.keys

theorem masked_start (hsize : params.size ≤ 16) : Masked params start := by
  refine ⟨List.Pairwise.nil, by simp [start, RailcomFlow.start, RailcomFlow.keys],
    fun h => absurd h (by decide), fun h => absurd h (by decide), ?_, by simp [start]⟩
  intro channel hchannel
  exact empties_full (Nat.le_refl 16) channel (Nat.lt_of_lt_of_le hchannel hsize)

/-- A step that leaves the keys and the masks alone keeps the invariant, if it does not move the
scan. -/
theorem Masked.of_keys (h : s.Masked params) {flow : RailcomFlow} (hkeys : flow.keys = s.flow.keys)
    (hcycle : flow.inCycle = true → flow.pendingDeletions = true ∧
      (flow.currentTimeoutKey ≠ 0 →
        s.flow.inCycle = true ∧ flow.currentTimeoutKey = s.flow.currentTimeoutKey))
    (hout : flow.inCycle = false → s.flow.inCycle = false) :
    Masked params { s with flow } := by
  refine ⟨hkeys ▸ h.sorted, hkeys ▸ h.mobile, fun hin => (hcycle hin).1, ?_, h.empty, ?_⟩
  · intro hin hkey
    obtain ⟨hin', hsame⟩ := (hcycle hin).2 hkey
    simp only [hkeys, hsame] at hkey ⊢
    exact h.scanning hin' hkey
  · intro hnot
    simp only [hkeys]
    exact h.kept (hout hnot)

/-- Where the scan is, the mask it goes on with tells of the trackers it has passed. -/
theorem Masked.scanMask (h : s.Masked params) (hsize : params.size ≤ 16)
    (hin : s.flow.inCycle = true) : Empties params.size (s.scanMask params)
      (s.flow.keys.filter (· < s.flow.currentTimeoutKey)) := by
  unfold RailcomStatus.scanMask
  split_ifs with hzero
  · refine (empties_full hsize).congr fun key => ?_
    simp [hzero]
  · exact h.scanning hin hzero

/-- The trackers that the scan passes before it finds one at zero are those below that one. -/
theorem mem_takeWhile_ahead (hsorted : s.flow.keys.Pairwise (· < ·)) {found : LocoTracker}
    (hfound : s.ahead.find? (·.count = 0) = some found) (key : Nat) :
    key ∈ (s.ahead.takeWhile (·.count ≠ 0)).map (·.key) ↔
      key ∈ s.flow.keys ∧ s.flow.currentTimeoutKey ≤ key ∧ key < found.key := by
  have hordered : s.ahead.Pairwise (·.key < ·.key) :=
    (List.pairwise_map.mp hsorted).filter _
  obtain ⟨hzero, front, back, heq, hfront⟩ := List.find?_eq_some_iff_append.mp hfound
  have htake : s.ahead.takeWhile (·.count ≠ 0) = front := by
    rw [heq, List.takeWhile_append_of_pos (by simpa using hfront),
      List.takeWhile_cons_of_neg (by simpa using hzero), List.append_nil]
  rw [heq, List.pairwise_append, List.pairwise_cons] at hordered
  obtain ⟨-, ⟨hback, -⟩, hacross⟩ := hordered
  have hmem : ∀ tracker, tracker ∈ front ++ found :: back ↔
      tracker ∈ s.flow.trackers ∧ s.flow.currentTimeoutKey ≤ tracker.key := by
    intro tracker
    rw [← heq, ahead, List.mem_filter, decide_eq_true_eq]
  rw [htake]
  constructor
  · intro hkey
    obtain ⟨tracker, hin, rfl⟩ := List.mem_map.mp hkey
    obtain ⟨hold, hahead⟩ := (hmem tracker).mp (List.mem_append_left _ hin)
    exact ⟨List.mem_map_of_mem hold, hahead, hacross tracker hin found (by simp)⟩
  · rintro ⟨hkey, hahead, hbelow⟩
    obtain ⟨tracker, hold, rfl⟩ := List.mem_map.mp hkey
    rcases List.mem_append.mp ((hmem tracker).mpr ⟨hold, hahead⟩) with hin | hin
    · exact List.mem_map_of_mem hin
    · rcases List.mem_cons.mp hin with rfl | hin
      · exact absurd hbelow (Nat.lt_irrefl _)
      · exact absurd (hback tracker hin) (Nat.lt_asymm hbelow)

/-- The keys without that of the tracker that the scan deletes. -/
theorem keys_filter_ne (s : RailcomFlow) (key : Nat) :
    (s.trackers.filter (·.key ≠ key)).map (·.key) = s.keys.filter (· ≠ key) := by
  rw [RailcomFlow.keys, List.filter_map]
  rfl

/-- The timeout scan keeps the invariant. -/
theorem Masked.checkTimeouts (h : s.Masked params) (hsize : params.size ≤ 16)
    (hstate : s.flow.state = .checkTimeouts) :
    Masked params { s.checkTimeouts params with flow := s.flow.checkTimeouts } := by
  have hin : s.flow.inCycle = true := by simp [RailcomFlow.inCycle, hstate]
  have hmask := h.scanMask hsize hin
  rcases checkTimeouts_cases params (h.pending hin) with
    ⟨hkey, hflow, heq⟩ | ⟨found, hfound, hflow, heq⟩ | ⟨-, hflow, heq⟩
  · rw [hflow, heq]
    exact h.of_keys rfl (fun _ => ⟨h.pending hin, fun _ => ⟨hin, rfl⟩⟩)
      (fun hnot => by simp [RailcomFlow.inCycle] at hnot)
  · have hkeys : s.flow.checkTimeouts.keys = s.flow.keys.filter (· ≠ found.key) := by
      rw [hflow]
      exact keys_filter_ne s.flow found.key
    have hkey : s.flow.checkTimeouts.currentTimeoutKey = found.key := by rw [hflow]
    rw [heq]
    refine ⟨?_, ?_, fun _ => ?_, fun _ _ => ?_, h.empty, fun hnot => ?_⟩
    · rw [hkeys]
      exact h.sorted.filter _
    · intro key hmem
      rw [hkeys] at hmem
      exact h.mobile key (List.mem_filter.mp hmem).1
    · rw [hflow]
      exact h.pending hin
    · refine (hmask.clearBits hsize (s.ahead.takeWhile (·.count ≠ 0))).congr fun key => ?_
      have hahead : s.flow.currentTimeoutKey ≤ found.key := by
        simpa using (List.mem_filter.mp (List.mem_of_find?_eq_some hfound)).2
      rw [List.mem_append, mem_takeWhile_ahead h.sorted hfound, hkeys, hkey]
      simp only [List.mem_filter, decide_eq_true_eq]
      constructor
      · rintro ⟨⟨hmem, -⟩, hbelow⟩
        rcases Nat.lt_or_ge key s.flow.currentTimeoutKey with hpassed | hahead'
        · exact Or.inl ⟨hmem, hpassed⟩
        · exact Or.inr ⟨hmem, hahead', hbelow⟩
      · rintro (⟨hmem, hpassed⟩ | ⟨hmem, -, hbelow⟩)
        · have hbelow := Nat.lt_of_lt_of_le hpassed hahead
          exact ⟨⟨hmem, Nat.ne_of_lt hbelow⟩, hbelow⟩
        · exact ⟨⟨hmem, Nat.ne_of_lt hbelow⟩, hbelow⟩
    · rw [hflow] at hnot
      simp [RailcomFlow.inCycle] at hnot
  · rw [hflow, heq]
    refine ⟨h.sorted, h.mobile, fun hcycle => by simp [RailcomFlow.inCycle] at hcycle,
      fun hcycle => by simp [RailcomFlow.inCycle] at hcycle, ?_,
      fun _ tracker hmem => List.mem_map_of_mem hmem⟩
    refine (hmask.clearBits hsize s.ahead).congr fun key => ?_
    change key ∈ s.flow.keys ↔ _
    simp only [List.mem_append, List.mem_filter, ahead, List.mem_map, RailcomFlow.keys,
      decide_eq_true_eq]
    constructor
    · rintro ⟨tracker, hmem, rfl⟩
      rcases Nat.lt_or_ge tracker.key s.flow.currentTimeoutKey with hpassed | hahead
      · exact Or.inl ⟨⟨tracker, hmem, rfl⟩, hpassed⟩
      · exact Or.inr ⟨tracker, ⟨hmem, hahead⟩, rfl⟩
    · rintro (⟨hkey, -⟩ | ⟨tracker, ⟨hmem, -⟩, rfl⟩)
      · exact hkey
      · exact ⟨tracker, hmem, rfl⟩

theorem Masked.processCh2 (h : s.Masked params) (hstate : s.flow.state = .processCh2) :
    Masked params { s with flow := s.flow.processCh2 params } := by
  have hin : s.flow.inCycle = false := by simp [RailcomFlow.inCycle, hstate]
  have hout : (s.flow.processCh2 params).inCycle = false := by
    rcases RailcomFlow.processCh2_cases params s.flow with
      heq | ⟨_, _, -, -, -, -, ⟨-, heq⟩ | ⟨_, -, heq⟩⟩ <;> rw [heq] <;> rfl
  rcases RailcomFlow.keys_processCh2 params (s := s.flow) with
    hkeys | ⟨address, channel, count, hmobile, hchannel, hnew, heq⟩
  · exact h.of_keys hkeys (fun hcycle => absurd (hout.symm.trans hcycle) (by decide)) fun _ => hin
  · have hmem : ∀ key, key ∈ (s.flow.processCh2 params).keys ↔
        key = trackerKey address channel ∨ key ∈ s.flow.keys := by
      intro key
      simp only [RailcomFlow.keys, heq, List.mem_map, RailcomFlow.mem_insert, or_and_right, exists_or,
        exists_eq_left]
      rw [eq_comm]
    refine ⟨?_, ?_, fun hcycle => absurd (hout.symm.trans hcycle) (by decide),
      fun hcycle => absurd (hout.symm.trans hcycle) (by decide), h.empty, ?_⟩
    · change (s.flow.processCh2 params).keys.Pairwise _
      rw [RailcomFlow.keys, List.pairwise_map, heq]
      refine RailcomFlow.sorted_insert (List.pairwise_map.mp h.sorted) fun other hother hsame => ?_
      have hmem' : other.key ∈ s.flow.keys := List.mem_map_of_mem hother
      rw [hsame] at hmem'
      exact hnew hmem'
    · intro key hkey
      rcases (hmem key).mp hkey with rfl | hold
      · exact ⟨address, channel, hmobile, hchannel, rfl⟩
      · exact h.mobile key hold
    · intro _ tracker htracker
      exact (hmem tracker.key).mpr (Or.inr (h.kept hin tracker htracker))

theorem step_eq_some {input : RailcomInput} (hstep : s.step params input = some s') :
    ∃ flow, s.flow.step params input = some flow ∧
      ((∃ answer, input = .flow answer ∧ s.flow.state = .checkTimeouts ∧
          s' = { s.checkTimeouts params with flow }) ∨
        ((∀ answer, input = .flow answer → s.flow.state ≠ .checkTimeouts) ∧
          s' = { s with flow })) := by
  obtain ⟨flow, hflow, heq⟩ := Option.map_eq_some_iff.mp hstep
  refine ⟨flow, hflow, ?_⟩
  split at heq
  · next answer hstate => exact Or.inl ⟨answer, rfl, hstate, heq.symm⟩
  · next hother => exact Or.inr ⟨fun answer hinput hstate => hother answer hinput hstate, heq.symm⟩

theorem Masked.step (h : s.Masked params) (hsize : params.size ≤ 16) {input : RailcomInput}
    (hstep : s.step params input = some s') : s'.Masked params := by
  obtain ⟨flow, hflow, ⟨answer, rfl, hstate, rfl⟩ | ⟨hother, rfl⟩⟩ := step_eq_some hstep
  · simp only [RailcomFlow.step, RailcomFlow.runState, hstate, Option.some.injEq] at hflow
    subst hflow
    exact h.checkTimeouts hsize hstate
  cases input with
  | arrive message =>
    cases hflow
    exact h.of_keys rfl (fun hin => ⟨h.pending hin, fun _ => ⟨hin, rfl⟩⟩) id
  | dccPacket b0 b1 =>
    cases hflow
    have hkeys := RailcomFlow.keys_handleDccPacket params (s := s.flow) b0 b1
    unfold RailcomFlow.handleDccPacket at hkeys ⊢
    simp only at hkeys ⊢
    split_ifs at hkeys ⊢
    · exact h
    · exact h.of_keys hkeys
        (fun hin => ⟨by simp [h.pending hin], fun _ => ⟨hin, rfl⟩⟩) id
  | flow answer =>
    have hrun : s.flow.runState params answer = some flow := hflow
    have hscan := hother answer rfl
    by_cases hch2 : s.flow.state = .processCh2
    · simp only [RailcomFlow.runState, hch2, Option.some.injEq] at hrun
      subst hrun
      exact h.processCh2 hch2
    · obtain ⟨hin, hout⟩ := RailcomFlow.cycle_runState hrun hscan hch2
      refine h.of_keys (RailcomFlow.keys_runState hrun hscan hch2) (fun hcycle => ?_) hout
      rcases hin hcycle with ⟨hpending, hzero⟩ | ⟨hold, hpending, hkey⟩
      · exact ⟨hpending, fun hne => absurd hzero hne⟩
      · exact ⟨hpending.trans (h.pending hold), fun _ => ⟨hold, hkey⟩⟩

theorem masked_of_run (hsize : params.size ≤ 16) {history : List RailcomInput}
    (hrun : Trace.run (step params) start history = some s) : s.Masked params :=
  Trace.invariant_of_step (I := fun _ s => s.Masked params) (masked_start hsize)
    (fun _ _ _ _ h hstep => h.step hsize hstep) hrun

/-! The answers. -/

theorem IsMobile.lt (hfits : params.Fits) {address : Nat} (h : params.IsMobile address) :
    address < 0x4000 := by
  obtain ⟨b0, b1, rfl, hvalid⟩ := h
  exact RailcomParams.dccToAddress_lt hfits hvalid

/-- The mask, read outside the scan, tells of the trackers that the last scan left. -/
theorem Masked.hasRailcomEntry (h : s.Masked params) {channel : Nat}
    (hchannel : channel < params.size) :
    s.hasRailcomEntry channel = true ↔ (s.flow.channels channel).currentAddress ≠ 0 ∨
      ∃ tracker ∈ s.scanned, channelOf tracker = channel := by
  rw [RailcomStatus.hasRailcomEntry, Bool.or_eq_true, bne_iff_ne, Bool.not_eq_true']
  refine or_congr_right ?_
  rw [← Bool.not_eq_true, h.empty channel hchannel]
  simp [channelOf]

/-- The trackers of a channel. -/
theorem Masked.tracks_iff (h : s.Masked params) (hfits : params.Fits) {channel : Nat}
    (hchannel : channel < params.size) :
    (∃ address, s.flow.Tracks channel address) ↔
      ∃ tracker ∈ s.flow.trackers, channelOf tracker = channel := by
  have hsize := hfits.size
  constructor
  · rintro ⟨address, tracker, hmem, hkey⟩
    exact ⟨tracker, hmem, by rw [channelOf, hkey, trackerKey_and (by omega)]⟩
  · rintro ⟨tracker, hmem, hsame⟩
    obtain ⟨address, channel', -, hchannel', hkey⟩ := h.mobile tracker.key (List.mem_map_of_mem hmem)
    rw [channelOf, hkey, trackerKey_and (by omega)] at hsame
    exact ⟨address, tracker, hmem, by rw [hkey, hsame]⟩

/-- The query for an event takes the two bits of the direction for a part of the address, so that it
finds no locomotive. -/
theorem Masked.identify (h : s.Masked params) (hfits : params.Fits) {channel address : Nat}
    (hchannel : channel < params.size) (haddress : address < 0x4000) :
    s.flow.handleIdentifyProducer params (params.addressToEventid channel address true) =
      [.invalid (params.addressToEventid channel address true)] := by
  have hsize := hfits.size
  obtain ⟨base, hbase, hevent⟩ := RailcomParams.addressToEventid_eq params
    (show channel < 16 by omega) haddress true
  simp only [if_true] at hevent
  -- The fields that the handler takes out of the event.
  have hquery : params.addressToEventid channel address true &&& 0xFFFF = 0xC000 + address := by
    rw [hevent, show (0xFFFF : Nat) = 2 ^ 16 - 1 from rfl, Nat.and_two_pow_sub_one_eq_mod]
    omega
  have hfrom : ((params.addressToEventid channel address true - params.eventBase) >>> 16) % 2 ^ 32 =
      channel := by
    rw [hevent, hbase, Nat.shiftRight_eq_div_pow]
    omega
  have hbefore : ¬ params.addressToEventid channel address true < params.eventBase := by
    rw [hevent, hbase]
    omega
  have hsame : params.addressToEventid channel (0xC000 + address) true =
      params.addressToEventid channel address true := by
    have hlow : (0xC000 + address) &&& 0x3FFF = address &&& 0x3FFF := by
      rw [show (0x3FFF : Nat) = 2 ^ 14 - 1 from rfl, Nat.and_two_pow_sub_one_eq_mod,
        Nat.and_two_pow_sub_one_eq_mod]
      omega
    rw [RailcomParams.addressToEventid, RailcomParams.addressToEventid, hlow]
  -- Neither the last address nor a tracker has so large an address.
  have hactual : params.railcomId12ToAddress (s.flow.channels channel).lastAddress ≠
      0xC000 + address := by
    have hlt := RailcomParams.railcomId12ToAddress_lt hfits (s.flow.channels channel).lastAddress
    omega
  have htracker : s.flow.tracker? (trackerKey (0xC000 + address) channel) = none := by
    refine List.find?_eq_none.mpr fun tracker hmem hkey => ?_
    obtain ⟨other, channel', hmobile, hchannel', heq⟩ :=
      h.mobile tracker.key (List.mem_map_of_mem hmem)
    have hlt := IsMobile.lt hfits hmobile
    rw [decide_eq_true_eq, heq, trackerKey_inj (by omega) (by omega)] at hkey
    omega
  unfold RailcomFlow.handleIdentifyProducer
  rw [if_neg hbefore]
  simp only [hfrom, hquery, hsame, htracker]
  rw [if_neg (by omega), if_neg (by omega), if_neg (by simp [hactual])]

end

section
variable (params : RailcomParams) (s : RailcomStatus)

/-- The locomotive is the last one that channel 1 reported, or it has a tracker above zero. -/
def Present (channel address : Nat) : Prop :=
  s.flow.Reports params channel address ∨
    ∃ tracker ∈ s.flow.trackers, tracker.key = trackerKey address channel ∧ 0 < tracker.count

/-- The answers to the queries agree with the addresses of the channels and with the trackers. -/
def AnswersAgree : Prop :=
  ∀ channel < params.size,
    (s.hasRailcomEntry channel = true ↔ (s.flow.channels channel).currentAddress ≠ 0 ∨
      ∃ address, s.flow.Tracks channel address) ∧
    ∀ address, params.IsMobile address →
      let event := params.addressToEventid channel address true
      (s.Present params channel address →
        s.flow.handleIdentifyProducer params event = [.valid event]) ∧
      (¬ s.Present params channel address →
        s.flow.handleIdentifyProducer params event = [.invalid event])

/-- No channel has a tracker that came after the last scan of a channel without one, while channel 1
reports nothing; and no mobile decoder is present. -/
def NothingNew : Prop :=
  ∀ channel < params.size,
    ((s.flow.channels channel).currentAddress = 0 → (∃ address, s.flow.Tracks channel address) →
      ∃ tracker ∈ s.scanned, channelOf tracker = channel) ∧
    ∀ address, params.IsMobile address → ¬ s.Present params channel address

end

/-- The answers of an idle flow agree with its state exactly if the trackers of each silent channel
were there for the last scan and there is no mobile decoder to ask for. -/
theorem answersAgree_iff {params : RailcomParams} (hfits : params.Fits) {history : List RailcomInput}
    {s : RailcomStatus} (hrun : Trace.run (step params) start history = some s)
    (hidle : s.flow.state = .idle) : s.AnswersAgree params ↔ s.NothingNew params := by
  have h := masked_of_run hfits.size hrun
  have hout : s.flow.inCycle = false := by simp [RailcomFlow.inCycle, hidle]
  refine forall₂_congr fun channel hchannel => and_congr ?_ ?_
  · rw [h.hasRailcomEntry hchannel, h.tracks_iff hfits hchannel]
    constructor
    · intro hagree hsilent htracked
      exact (hagree.mpr (Or.inr htracked)).resolve_left (fun hne => hne hsilent)
    · intro hscanned
      refine ⟨fun hentry => hentry.imp_right ?_, fun hentry => ?_⟩
      · rintro ⟨tracker, hmem, hsame⟩
        obtain ⟨kept, hkept, hkey⟩ := List.mem_map.mp (h.kept hout tracker hmem)
        exact ⟨kept, hkept, by rw [channelOf, hkey]; exact hsame⟩
      · by_cases hsilent : (s.flow.channels channel).currentAddress = 0
        · exact Or.inr (hscanned hsilent (hentry.resolve_left fun hne => hne hsilent))
        · exact Or.inl hsilent
  · refine forall₂_congr fun address hmobile => ?_
    simp only [h.identify hfits hchannel (IsMobile.lt hfits hmobile)]
    constructor
    · rintro ⟨hvalid, -⟩ hpresent
      simpa using hvalid hpresent
    · intro habsent
      exact ⟨fun hpresent => absurd hpresent habsent, fun _ => trivial⟩

/-- The history of one reply of the locomotive with the short address 3. -/
theorem answersAgree_silent : ∃ s, Trace.run (step RailcomFlow.oneChannel) start
    (RailcomFlow.reply 3) = some s ∧
      (s.AnswersAgree RailcomFlow.oneChannel ↔ s.NothingNew RailcomFlow.oneChannel) := by
  have hrun : (Trace.run (step RailcomFlow.oneChannel) start (RailcomFlow.reply 3)).map
      (fun s => s.flow.state) = some .idle := by decide
  obtain ⟨s, hs, hidle⟩ := Option.map_eq_some_iff.mp hrun
  exact ⟨s, hs, answersAgree_iff RailcomFlow.oneChannel_fits hs hidle⟩

/-- The locomotive has a tracker, but `has_railcom_entry` does not know of it. -/
theorem reply_unanswered : ¬ ∀ history s,
    Trace.run (step RailcomFlow.oneChannel) start history = some s → s.flow.state = .idle →
      s.AnswersAgree RailcomFlow.oneChannel := by
  intro hall
  have hrun : (Trace.run (step RailcomFlow.oneChannel) start (RailcomFlow.reply 3)).map
      (fun s => (s.flow.state, s.hasRailcomEntry 0,
        s.flow.trackers.any (·.key = trackerKey 0x3803 0))) = some (.idle, false, true) := by
    decide
  obtain ⟨s, hs, hfields⟩ := Option.map_eq_some_iff.mp hrun
  simp only [Prod.mk.injEq, List.any_eq_true, decide_eq_true_eq] at hfields
  obtain ⟨hidle, hentry, tracker, hmem, hkey⟩ := hfields
  have htrue := ((hall _ s hs hidle 0 (by decide)).1).mpr
    (Or.inr ⟨0x3803, tracker, hmem, hkey⟩)
  rw [hentry] at htrue
  cases htrue

end RailcomStatus

end OpenmrnCue.CommandStation
