import OpenmrnCue.CommandStation.RailcomTimeouts

/-! The entry and exit events of the railcom flow agree with the presence of the locomotives: the
last event of a locomotive on a channel is its entry event if channel 1 reports its address or
channel 2 keeps a tracker for it. -/

namespace OpenmrnCue.CommandStation

/-- The constants are those of addresses of 14 bits, and there are at most 16 channels. -/
structure RailcomParams.Fits (params : RailcomParams) : Prop where
  size : params.size ≤ 16
  adrMobileShort : params.adrMobileShort < 0x40
  adrConsistShort : params.adrConsistShort < 0x40

namespace RailcomParams

variable {params : RailcomParams}

/-- The fields of an event id. -/
theorem addressToEventid_eq (params : RailcomParams) {channel address : Nat} (hchannel : channel < 16)
    (haddress : address < 0x4000) (entry : Bool) :
    ∃ base, params.eventBase = 2 ^ 20 * base ∧ params.addressToEventid channel address entry =
      2 ^ 20 * base + (2 ^ 16 * channel + (2 ^ 14 * (if entry then 3 else 0) + address)) := by
  have hbase : ∃ base, params.eventBase = 2 ^ 20 * base := by
    refine ⟨(0x0680 <<< 28) ||| (((params.nodeId >>> 24) &&& 0x0FFF) <<< 20) |||
      (params.nodeId &&& 0xFFFFF), ?_⟩
    rw [Nat.mul_comm, ← Nat.shiftLeft_eq, Nat.shiftLeft_or_distrib, Nat.shiftLeft_or_distrib]
    simp only [← Nat.shiftLeft_add]
    rfl
  obtain ⟨base, hbase⟩ := hbase
  refine ⟨base, hbase, ?_⟩
  have hchannel' : channel &&& 0xf = channel := by
    rw [show (0xf : Nat) = 2 ^ 4 - 1 from rfl, Nat.and_two_pow_sub_one_eq_mod]
    exact Nat.mod_eq_of_lt hchannel
  have haddress' : address &&& 0x3FFF = address := by
    rw [show (0x3FFF : Nat) = 2 ^ 14 - 1 from rfl, Nat.and_two_pow_sub_one_eq_mod]
    exact Nat.mod_eq_of_lt haddress
  have hvalue : ((if entry then 0xC000 else 0) ||| (address &&& 0x3FFF)) =
      2 ^ 14 * (if entry then 3 else 0) + address := by
    rw [haddress', Nat.two_pow_add_eq_or_of_lt haddress]
    cases entry <;> rfl
  have hlow : 2 ^ 14 * (if entry then 3 else 0) + address < 2 ^ 16 := by
    cases entry <;> simp <;> omega
  rw [addressToEventid, hbase, hchannel', hvalue, Nat.shiftLeft_eq, Nat.mul_comm channel,
    Nat.or_assoc, ← Nat.two_pow_add_eq_or_of_lt hlow,
    ← Nat.two_pow_add_eq_or_of_lt (show _ < 2 ^ 20 by omega)]

theorem addressToEventid_inj {channel channel' address address' : Nat} {entry entry' : Bool}
    (hchannel : channel < 16) (hchannel' : channel' < 16) (haddress : address < 0x4000)
    (haddress' : address' < 0x4000)
    (heq : params.addressToEventid channel address entry =
      params.addressToEventid channel' address' entry') :
    channel = channel' ∧ address = address' ∧ entry = entry' := by
  obtain ⟨base, hbase, hid⟩ := addressToEventid_eq params hchannel haddress entry
  obtain ⟨base', hbase', hid'⟩ := addressToEventid_eq params hchannel' haddress' entry'
  rw [hid, hid'] at heq
  rw [hbase] at hbase'
  cases entry <;> cases entry' <;> simp only [if_true, if_false, Bool.false_eq_true] at heq <;>
    refine ⟨?_, ?_, ?_⟩ <;> first | rfl | omega

theorem or_shiftLeft_lt {low high : Nat} (hlow : low < 2 ^ 8) (hhigh : high < 0x40) :
    low ||| (high <<< 8) < 0x4000 := by
  rw [Nat.or_comm, Nat.shiftLeft_eq, Nat.mul_comm, ← Nat.two_pow_add_eq_or_of_lt hlow]
  omega

theorem and_lt {x : Nat} (bits : Nat) : x &&& (2 ^ bits - 1) < 2 ^ bits := by
  rw [Nat.and_two_pow_sub_one_eq_mod]
  exact Nat.mod_lt _ (Nat.two_pow_pos bits)

theorem railcomId12ToAddress_lt (h : params.Fits) (address : Nat) :
    params.railcomId12ToAddress address < 0x4000 := by
  have hlow : address &&& 0x7F < 2 ^ 8 := Nat.lt_trans (and_lt 7) (by decide)
  unfold railcomId12ToAddress
  split_ifs
  · exact or_shiftLeft_lt hlow h.adrConsistShort
  · exact Nat.lt_of_le_of_lt (Nat.min_le_left _ _) (and_lt 14)
  · exact or_shiftLeft_lt hlow h.adrMobileShort

theorem railcomId12ToAddress_zero (params : RailcomParams) :
    params.railcomId12ToAddress 0 = params.emptyAddress := by
  simp [railcomId12ToAddress, emptyAddress]

theorem emptyAddress_lt (h : params.Fits) : params.emptyAddress < 0x4000 := by
  have hlt : 0 ||| params.adrMobileShort <<< 8 < 0x4000 :=
    or_shiftLeft_lt (by decide) h.adrMobileShort
  simpa [emptyAddress] using hlt

theorem dccToAddress_lt (h : params.Fits) {b0 b1 : Nat}
    (hvalid : params.dccToAddress b0 b1 ≠ 0xFFFF) : params.dccToAddress b0 b1 < 0x4000 := by
  unfold dccToAddress at hvalid ⊢
  simp only at hvalid ⊢
  split_ifs at hvalid ⊢
  · exact absurd rfl hvalid
  · rw [Nat.or_comm]
    exact or_shiftLeft_lt (Nat.mod_lt _ (by decide)) (and_lt 6)
  · exact or_shiftLeft_lt (Nat.mod_lt _ (by decide)) h.adrMobileShort
  · exact absurd rfl hvalid

end RailcomParams

theorem trackerKey_eq {address channel : Nat} (hchannel : channel < 2 ^ 16) :
    trackerKey address channel = 2 ^ 16 * address + channel := by
  rw [trackerKey, Nat.shiftLeft_eq, Nat.mul_comm, ← Nat.two_pow_add_eq_or_of_lt hchannel]

theorem trackerKey_shiftRight {address channel : Nat} (hchannel : channel < 2 ^ 16) :
    trackerKey address channel >>> 16 = address := by
  rw [trackerKey_eq hchannel, Nat.shiftRight_eq_div_pow]
  omega

theorem trackerKey_and {address channel : Nat} (hchannel : channel < 2 ^ 16) :
    trackerKey address channel &&& 0xffff = channel := by
  rw [trackerKey_eq hchannel, show (0xffff : Nat) = 2 ^ 16 - 1 from rfl,
    Nat.and_two_pow_sub_one_eq_mod]
  omega

theorem trackerKey_inj {address address' channel channel' : Nat} (hchannel : channel < 2 ^ 16)
    (hchannel' : channel' < 2 ^ 16) :
    trackerKey address channel = trackerKey address' channel' ↔
      address = address' ∧ channel = channel' := by
  rw [trackerKey_eq hchannel, trackerKey_eq hchannel']
  omega

/-- The last of the entry and exit events of a locomotive on a channel is the entry event. -/
def entered (params : RailcomParams) (events : List Nat) (channel address : Nat) : Bool :=
  (events.filter fun event => event = params.addressToEventid channel address true ||
    event = params.addressToEventid channel address false).getLast? =
      some (params.addressToEventid channel address true)

/-- What one more event does. -/
theorem entered_concat {params : RailcomParams} {events : List Nat}
    {channel channel' address address' : Nat} {entry : Bool}
    (hchannel : channel < 16) (hchannel' : channel' < 16) (haddress : address < 0x4000)
    (haddress' : address' < 0x4000) :
    entered params (events ++ [params.addressToEventid channel' address' entry]) channel address =
      if channel = channel' ∧ address = address' then entry
      else entered params events channel address := by
  split_ifs with hsame
  · obtain ⟨rfl, rfl⟩ := hsame
    cases entry
    · have hne : params.addressToEventid channel address false ≠
          params.addressToEventid channel address true := fun heq => by
        cases (RailcomParams.addressToEventid_inj hchannel hchannel haddress haddress heq).2.2
      simp [entered, hne]
    · simp [entered]
  · have hne : ∀ on, params.addressToEventid channel' address' entry ≠
        params.addressToEventid channel address on := by
      intro on heq
      obtain ⟨hch, had, -⟩ :=
        RailcomParams.addressToEventid_inj hchannel' hchannel haddress' haddress heq
      exact hsame ⟨hch.symm, had.symm⟩
    simp [entered, hne]

namespace RailcomFlow

section
variable (params : RailcomParams) (s : RailcomFlow) (channel address : Nat)

/-- The address that channel 1 reported last is `address`. -/
def Reports : Prop := params.railcomId12ToAddress (s.channels channel).lastAddress = address

/-- There is a tracker for the locomotive. -/
def Tracks : Prop := ∃ tracker ∈ s.trackers, tracker.key = trackerKey address channel

/-- The tracker of the locomotive is at zero. -/
def Expired : Prop :=
  ∃ tracker ∈ s.trackers, tracker.key = trackerKey address channel ∧ tracker.count = 0

/-- The events say what channel 1 reported last and what the trackers say. -/
def Settled : Prop :=
  entered params s.events channel address = true ↔
    s.Reports params channel address ∨ s.Tracks channel address

/-- The exit event was sent when channel 1 lost the locomotive, while its tracker was at zero and
not yet deleted. -/
def Stale : Prop :=
  entered params s.events channel address = false ∧ ¬ s.Reports params channel address ∧
    s.Expired channel address

/-- The flow is about to change the address that channel 1 reported last, and it is this one. -/
def Leaves : Prop := s.message.channel = channel ∧ s.Reports params channel address

/-- How the events of a locomotive agree with its presence, in each state of the flow. -/
def Agrees : Prop :=
  match s.state with
  | .processCh2 | .processCh1 => s.Settled params channel address
  | .sendTimeoutEvent =>
    (s.currentTimeoutKey = trackerKey address channel →
      ¬ s.Tracks channel address ∧ ¬ s.Reports params channel address) ∧
    (s.currentTimeoutKey ≠ trackerKey address channel →
      s.Settled params channel address ∨ s.Stale params channel address)
  | .sendCh2Event =>
    (s.currentTimeoutKey = trackerKey address channel → s.Tracks channel address) ∧
    (s.currentTimeoutKey ≠ trackerKey address channel → s.Settled params channel address)
  | .sendInvalid =>
    (s.Leaves params channel address → s.Tracks channel address → s.Expired channel address) ∧
    (¬ s.Leaves params channel address → s.Settled params channel address)
  | .prepareCh1On | .sendEvent =>
    (s.Leaves params channel address →
      (entered params s.events channel address = true ↔ s.Tracks channel address) ∨
      (entered params s.events channel address = false ∧ s.Expired channel address)) ∧
    (¬ s.Leaves params channel address → s.Settled params channel address)
  | .idle | .entry | .checkTimeouts | .sendChannelEmpty | .finish =>
    s.Settled params channel address ∨ s.Stale params channel address

/-- A message that lets the flow notice that the current address of the channel has changed. -/
def Noticed : Prop :=
  fakeFeedback channel ∈ s.queue ∨
  (s.message = fakeFeedback channel ∧ s.state ∉ [.idle, .sendInvalid, .prepareCh1On, .sendEvent,
    .finish]) ∨
  (s.message.channel = channel ∧ s.state ∈ [.sendInvalid, .prepareCh1On, .sendEvent])

end

/-- The locomotive of a key that the flow can have. -/
def KeyFits (size key : Nat) : Prop :=
  ∃ address channel, address < 0x4000 ∧ channel < size ∧ key = trackerKey address channel

/-- The invariant of the runs. -/
structure Present (params : RailcomParams) (s : RailcomFlow) : Prop where
  expiring : s.Expiring
  keys : ∀ tracker ∈ s.trackers, KeyFits params.size tracker.key
  timeoutKey : KeyFits 16 s.currentTimeoutKey
  messageChannel : s.state ∈ [.sendInvalid, .prepareCh1On, .sendEvent] →
    s.message.channel < params.size
  agrees : ∀ channel < params.size, ∀ address < 0x4000, address ≠ params.emptyAddress →
    s.Agrees params channel address
  noticed : ∀ channel < params.size,
    (s.channels channel).currentAddress ≠ (s.channels channel).lastAddress → s.Noticed channel

theorem present_start (params : RailcomParams) : Present params start := by
  refine ⟨expiring_start, by simp [start], ⟨0, 0, by decide, by decide, rfl⟩, by simp [start], ?_,
    by simp [start]⟩
  intro channel _ address _ hne
  refine Or.inl ⟨fun h => by simp [start, entered] at h, ?_⟩
  rintro (h | ⟨tracker, hmem, -⟩)
  · exact absurd ((params.railcomId12ToAddress_zero).symm.trans h).symm hne
  · simp [start] at hmem

/-- Two flows whose trackers have the same keys, and the same keys at zero. -/
structure SameTrackers (s s' : RailcomFlow) : Prop where
  tracks : ∀ channel address, s'.Tracks channel address ↔ s.Tracks channel address
  expired : ∀ channel address, s.Expired channel address → s'.Expired channel address

theorem Agrees.of_sameTrackers {params : RailcomParams} {s s' : RailcomFlow} {channel address : Nat}
    (h : s.Agrees params channel address) (hsame : SameTrackers s s') (hstate : s'.state = s.state)
    (hmessage : s'.message = s.message) (hchannels : s'.channels = s.channels)
    (hkey : s'.currentTimeoutKey = s.currentTimeoutKey) (hevents : s'.events = s.events) :
    s'.Agrees params channel address := by
  have htracks := hsame.tracks channel address
  have hexpired := hsame.expired channel address
  have hreports : s'.Reports params channel address ↔ s.Reports params channel address := by
    simp only [Reports, hchannels]
  have hsettled : s.Settled params channel address → s'.Settled params channel address := by
    simp only [Settled, hevents, hreports, htracks, imp_self]
  have hstale : s.Stale params channel address → s'.Stale params channel address := by
    simp only [Stale, hevents, hreports]
    exact fun h => ⟨h.1, h.2.1, hexpired h.2.2⟩
  have hleaves : s'.Leaves params channel address ↔ s.Leaves params channel address := by
    simp only [Leaves, hmessage, hreports]
  unfold Agrees at h ⊢
  rw [hstate]
  cases hs : s.state <;> simp only [hs] at h ⊢
  case processCh2 | processCh1 => exact hsettled h
  case sendTimeoutEvent =>
    rw [hkey, htracks, hreports]
    exact ⟨h.1, fun hne => (h.2 hne).imp hsettled hstale⟩
  case sendCh2Event =>
    rw [hkey, htracks]
    exact ⟨h.1, fun hne => hsettled (h.2 hne)⟩
  case sendInvalid =>
    rw [hleaves, htracks]
    exact ⟨fun hl ht => hexpired (h.1 hl ht), fun hne => hsettled (h.2 hne)⟩
  case prepareCh1On | sendEvent =>
    rw [hleaves, htracks, hevents]
    exact ⟨fun hl => (h.1 hl).imp id fun hz => ⟨hz.1, hexpired hz.2⟩, fun hne => hsettled (h.2 hne)⟩
  all_goals exact h.imp hsettled hstale

section
variable {params : RailcomParams} {s : RailcomFlow} {channel address : Nat}

/-! What the steps do to the trackers and to the events of a locomotive. -/

theorem sameTrackers_handleDccPacket (b0 b1 : Nat) :
    SameTrackers s (s.handleDccPacket params b0 b1) := by
  unfold handleDccPacket
  simp only
  split_ifs
  · exact ⟨fun _ _ => Iff.rfl, fun _ _ => id⟩
  · refine ⟨fun channel address => ?_, ?_⟩
    · simp [Tracks, addressed_key]
    · rintro channel address ⟨tracker, hmem, hkey', hzero⟩
      refine ⟨tracker, List.mem_map.mpr ⟨tracker, hmem, ?_⟩, hkey', hzero⟩
      simp [LocoTracker.reportLocoAddressed, hzero]

theorem key_of_mem_handleDccPacket {b0 b1 : Nat} {tracker : LocoTracker}
    (hmem : tracker ∈ (s.handleDccPacket params b0 b1).trackers) :
    ∃ old ∈ s.trackers, old.key = tracker.key := by
  unfold handleDccPacket at hmem
  simp only at hmem
  split_ifs at hmem
  · exact ⟨tracker, hmem, rfl⟩
  · obtain ⟨old, hold, rfl⟩ := List.mem_map.mp hmem
    exact ⟨old, hold, (addressed_key _ old).symm⟩

/-- The events after one more was sent. -/
theorem entered_send (hfits : params.Fits) (hchannel : channel < params.size)
    (haddress : address < 0x4000) {channel' address' : Nat} (hchannel' : channel' < 16)
    (haddress' : address' < 0x4000) (entry : Bool) :
    entered params (s.send params channel' address' entry).events channel address =
      if channel = channel' ∧ address = address' then entry
      else entered params s.events channel address :=
  entered_concat (Nat.lt_of_lt_of_le hchannel hfits.size) hchannel' haddress haddress'

theorem KeyFits.and_lt {key : Nat} (h : KeyFits 16 key) : key &&& 0xffff < 16 := by
  obtain ⟨address, channel, -, hchannel, rfl⟩ := h
  rwa [trackerKey_and (by omega)]

theorem KeyFits.shiftRight_lt {key : Nat} (h : KeyFits 16 key) : key >>> 16 < 0x4000 := by
  obtain ⟨address, channel, haddress, hchannel, rfl⟩ := h
  rwa [trackerKey_shiftRight (by omega)]

/-- The key names the locomotive. -/
theorem KeyFits.eq_iff {key : Nat} (h : KeyFits 16 key) (hchannel : channel < 16) :
    channel = key &&& 0xffff ∧ address = key >>> 16 ↔ key = trackerKey address channel := by
  obtain ⟨address', channel', -, hchannel', rfl⟩ := h
  rw [trackerKey_and (by omega), trackerKey_shiftRight (by omega),
    trackerKey_inj (by omega) (by omega)]
  exact ⟨fun h => ⟨h.2.symm, h.1.symm⟩, fun h => ⟨h.2.symm, h.1.symm⟩⟩

theorem KeyFits.mono {size key : Nat} (h : KeyFits size key) (hsize : size ≤ 16) :
    KeyFits 16 key := by
  obtain ⟨address, channel, haddress, hchannel, rfl⟩ := h
  exact ⟨address, channel, haddress, Nat.lt_of_lt_of_le hchannel hsize, rfl⟩

/-- The events after one more was sent for the locomotive of the saved key. -/
theorem entered_sendKey (hfits : params.Fits) (hchannel : channel < params.size)
    (haddress : address < 0x4000) (hkey : KeyFits 16 s.currentTimeoutKey) (entry : Bool) :
    entered params (s.send params (s.currentTimeoutKey &&& 0xffff) (s.currentTimeoutKey >>> 16)
        entry).events channel address =
      if s.currentTimeoutKey = trackerKey address channel then entry
      else entered params s.events channel address := by
  rw [entered_send hfits hchannel haddress hkey.and_lt hkey.shiftRight_lt entry]
  simp only [hkey.eq_iff (Nat.lt_of_lt_of_le hchannel hfits.size)]

/-- There is no stale locomotive without a deletion pending. -/
theorem Present.settled (h : s.Present params) (hpending : s.pendingDeletions = false)
    (hagrees : s.Settled params channel address ∨ s.Stale params channel address) :
    s.Settled params channel address := by
  rcases hagrees with hsettled | ⟨-, -, tracker, hmem, -, hzero⟩
  · exact hsettled
  · have htrue := h.expiring.pending tracker hmem hzero
    rw [hpending] at htrue
    cases htrue

/-- The scan deletes the tracker of a locomotive that channel 1 does not report. -/
theorem agrees_delete {found : LocoTracker} (hagrees :
      s.Settled params channel address ∨ s.Stale params channel address)
    (hreported : found.key = trackerKey address channel → ¬ s.Reports params channel address) :
    ({ s with
      currentTimeoutKey := found.key
      trackers := s.trackers.filter (·.key ≠ found.key)
      state := .sendTimeoutEvent } : RailcomFlow).Agrees params channel address := by
  refine ⟨fun hkey => ⟨?_, hreported hkey⟩, fun hkey => ?_⟩
  · rintro ⟨tracker, hmem, hkey'⟩
    have hne := (List.mem_filter.mp hmem).2
    simp only [ne_eq, decide_eq_true_eq] at hne
    exact hne (hkey'.trans hkey.symm)
  · have hkept : ∀ tracker : LocoTracker, tracker.key = trackerKey address channel →
        tracker ∈ s.trackers → tracker ∈ s.trackers.filter (·.key ≠ found.key) := by
      intro tracker hkey' hmem
      exact List.mem_filter.mpr ⟨hmem, by simpa [hkey'] using Ne.symm hkey⟩
    rcases hagrees with hsettled | ⟨hout, hreports, tracker, hmem, hkey', hzero⟩
    · refine Or.inl (hsettled.trans (or_congr Iff.rfl ⟨?_, ?_⟩))
      · rintro ⟨tracker, hmem, hkey'⟩
        exact ⟨tracker, hkept tracker hkey' hmem, hkey'⟩
      · rintro ⟨tracker, hmem, hkey'⟩
        exact ⟨tracker, (List.mem_filter.mp hmem).1, hkey'⟩
    · exact Or.inr ⟨hout, hreports, tracker, hkept tracker hkey' hmem, hkey', hzero⟩

/-- The exit event of the deleted tracker. -/
theorem agrees_sendTimeoutEvent (hfits : params.Fits) (hchannel : channel < params.size)
    (haddress : address < 0x4000) (hkey : KeyFits 16 s.currentTimeoutKey)
    (hstate : s.state = .sendTimeoutEvent) (h : s.Agrees params channel address) :
    (s.sendTimeoutEvent params).Agrees params channel address := by
  simp only [Agrees, hstate] at h
  have hentered : entered params (s.sendTimeoutEvent params).events channel address = _ :=
    entered_sendKey hfits hchannel haddress hkey false
  by_cases hthis : s.currentTimeoutKey = trackerKey address channel
  · obtain ⟨htracks, hreports⟩ := h.1 hthis
    rw [if_pos hthis] at hentered
    refine Or.inl (iff_of_false (by rw [hentered]; decide) ?_)
    rintro (hr | ht)
    · exact hreports hr
    · exact htracks ht
  · rw [if_neg hthis] at hentered
    refine (h.2 hthis).imp (fun hsettled => ?_) (fun hstale => ?_)
    · unfold Settled
      rw [hentered]
      exact hsettled
    · unfold Stale
      rw [hentered]
      exact hstale

/-- The event of an empty channel is none of the events of a locomotive. -/
theorem agrees_sendChannelEmpty (hfits : params.Fits) (hchannel : channel < params.size)
    (haddress : address < 0x4000) (hne : address ≠ params.emptyAddress)
    (hkey : KeyFits 16 s.currentTimeoutKey)
    (h : s.Settled params channel address ∨ s.Stale params channel address) :
    (s.sendChannelEmpty params).Agrees params channel address := by
  have hentered : entered params (s.sendChannelEmpty params).events channel address = _ :=
    entered_send hfits hchannel haddress hkey.and_lt (RailcomParams.emptyAddress_lt hfits) true
  rw [if_neg (fun hsame => hne hsame.2)] at hentered
  refine h.imp (fun hsettled => ?_) (fun hstale => ?_)
  · unfold Settled
    rw [hentered]
    exact hsettled
  · unfold Stale
    rw [hentered]
    exact hstale

/-- A new tracker. -/
theorem agrees_insert {tracker : LocoTracker} (h : s.Settled params channel address) :
    ({ s with
      trackers := LocoTracker.insert tracker s.trackers
      currentTimeoutKey := tracker.key
      state := .sendCh2Event } : RailcomFlow).Agrees params channel address := by
  refine ⟨fun hkey => ⟨tracker, mem_insert.mpr (Or.inl rfl), hkey⟩, fun hkey => ?_⟩
  refine Iff.trans h (or_congr Iff.rfl ⟨?_, ?_⟩)
  · rintro ⟨other, hmem, hkey'⟩
    exact ⟨other, mem_insert.mpr (Or.inr hmem), hkey'⟩
  · rintro ⟨other, hmem, hkey'⟩
    rcases mem_insert.mp hmem with rfl | hold
    · exact absurd hkey' hkey
    · exact ⟨other, hold, hkey'⟩

/-- A tracker that has been seen again. -/
theorem settled_seen {key : Nat} (h : s.Settled params channel address) :
    ({ s with
      trackers := s.trackers.map fun tracker =>
        if tracker.key = key then ⟨key, LocoTracker.seenCount tracker.count⟩ else tracker
      state := .processCh1 } : RailcomFlow).Settled params channel address := by
  have hkey : ∀ tracker : LocoTracker, (if tracker.key = key then
      ⟨key, LocoTracker.seenCount tracker.count⟩ else tracker : LocoTracker).key = tracker.key := by
    intro tracker
    split_ifs with heq
    · exact heq.symm
    · rfl
  refine Iff.trans h (or_congr Iff.rfl ?_)
  simp [Tracks, hkey]

/-- The entry event of the new tracker. -/
theorem agrees_sendCh2Event (hfits : params.Fits) (hchannel : channel < params.size)
    (haddress : address < 0x4000) (hkey : KeyFits 16 s.currentTimeoutKey)
    (hstate : s.state = .sendCh2Event) (h : s.Agrees params channel address) :
    (s.sendCh2Event params).Agrees params channel address := by
  simp only [Agrees, hstate] at h
  have hentered : entered params (s.sendCh2Event params).events channel address = _ :=
    entered_sendKey hfits hchannel haddress hkey true
  show entered params (s.sendCh2Event params).events channel address = true ↔ _
  by_cases hthis : s.currentTimeoutKey = trackerKey address channel
  · rw [hentered, if_pos hthis]
    exact iff_of_true rfl (Or.inr (h.1 hthis))
  · rw [hentered, if_neg hthis]
    exact h.2 hthis

/-- The exit event of the address that channel 1 reported last. -/
theorem agrees_sendInvalid (hfits : params.Fits) (hchannel : channel < params.size)
    (haddress : address < 0x4000) (hmessage : s.message.channel < params.size)
    (hstate : s.state = .sendInvalid) (h : s.Agrees params channel address) :
    (s.sendInvalid params).Agrees params channel address := by
  simp only [Agrees, hstate] at h
  have hentered : entered params (s.sendInvalid params).events channel address = _ :=
    entered_send hfits hchannel haddress (Nat.lt_of_lt_of_le hmessage hfits.size)
      (RailcomParams.railcomId12ToAddress_lt hfits _) false
  refine ⟨fun hleaves => ?_, fun hstays => ?_⟩
  · have hleaves' : s.Leaves params channel address := hleaves
    rw [if_pos ⟨hleaves'.1.symm, by rw [hleaves'.1]; exact hleaves'.2.symm⟩] at hentered
    by_cases htracks : s.Tracks channel address
    · exact Or.inr ⟨hentered, h.1 hleaves' htracks⟩
    · exact Or.inl (iff_of_false (by rw [hentered]; decide) htracks)
  · have hstays' : ¬ s.Leaves params channel address := hstays
    have hother : ¬ (channel = s.message.channel ∧
        address = params.railcomId12ToAddress (s.channels s.message.channel).lastAddress) := by
      rintro ⟨rfl, rfl⟩
      exact hstays' ⟨rfl, rfl⟩
    rw [if_neg hother] at hentered
    show entered params (s.sendInvalid params).events channel address = true ↔ _
    rw [hentered]
    exact h.2 hstays'

/-- The new address of channel 1 takes the place of the last one, after its entry event. -/
theorem agrees_keepAddress {s' : RailcomFlow}
    (h : (s.Leaves params channel address →
        (entered params s.events channel address = true ↔ s.Tracks channel address) ∨
        (entered params s.events channel address = false ∧ s.Expired channel address)) ∧
      (¬ s.Leaves params channel address → s.Settled params channel address))
    (htrackers : s'.trackers = s.trackers)
    (hchannels : s'.channels = (s.keepAddress s.message.channel).channels)
    (hentered : entered params s'.events channel address =
      if channel = s.message.channel ∧ address = params.railcomId12ToAddress
        (s.channels s.message.channel).currentAddress then true
      else entered params s.events channel address) :
    s'.Settled params channel address ∨ s'.Stale params channel address := by
  have htracks : s'.Tracks channel address ↔ s.Tracks channel address := by
    simp only [Tracks, htrackers]
  have hexpired : s'.Expired channel address ↔ s.Expired channel address := by
    simp only [Expired, htrackers]
  by_cases hthis : channel = s.message.channel
  · have hreports : s'.Reports params channel address ↔ address = params.railcomId12ToAddress
        (s.channels s.message.channel).currentAddress := by
      simp only [Reports, hchannels, keepAddress, hthis, if_true]
      exact eq_comm
    by_cases hnew : address = params.railcomId12ToAddress
        (s.channels s.message.channel).currentAddress
    · rw [if_pos ⟨hthis, hnew⟩] at hentered
      exact Or.inl (iff_of_true hentered (Or.inl (hreports.mpr hnew)))
    · rw [if_neg fun hboth => hnew hboth.2] at hentered
      have hnot : ¬ s'.Reports params channel address := fun hr => hnew (hreports.mp hr)
      by_cases hleaves : s.Leaves params channel address
      · rcases h.1 hleaves with hiff | ⟨hout, hzero⟩
        · left
          unfold Settled
          rw [hentered, hiff, htracks]
          exact ⟨Or.inr, fun hor => hor.resolve_left hnot⟩
        · right
          exact ⟨hentered.trans hout, hnot, hexpired.mpr hzero⟩
      · left
        have hreported : ¬ s.Reports params channel address := fun hr => hleaves ⟨hthis.symm, hr⟩
        have hsettled := h.2 hleaves
        unfold Settled at hsettled ⊢
        rw [hentered, htracks, hsettled]
        exact ⟨fun hor => Or.inr (hor.resolve_left hreported),
          fun hor => Or.inr (hor.resolve_left hnot)⟩
  · have hleaves : ¬ s.Leaves params channel address := fun hl => hthis hl.1.symm
    rw [if_neg fun hboth => hthis hboth.1] at hentered
    have hreports : s'.Reports params channel address ↔ s.Reports params channel address := by
      simp only [Reports, hchannels, keepAddress, hthis, if_false]
    left
    unfold Settled
    rw [hentered, hreports, htracks]
    exact h.2 hleaves

theorem tracks_of_tracker? {tracker : LocoTracker}
    (h : s.tracker? (trackerKey address channel) = some tracker) :
    tracker ∈ s.trackers ∧ tracker.key = trackerKey address channel :=
  ⟨List.mem_of_find?_eq_some h, by simpa using List.find?_some h⟩

theorem tracker?_of_tracks (h : s.Tracks channel address) :
    ∃ tracker, s.tracker? (trackerKey address channel) = some tracker := by
  obtain ⟨tracker, hmem, hkey⟩ := h
  rw [← Option.isSome_iff_exists, tracker?, List.find?_isSome]
  exact ⟨tracker, hmem, by simpa using hkey⟩

/-- The channel 1 part of a message. -/
theorem agrees_processCh1 (answer : DecoderAnswer) (hne : address ≠ params.emptyAddress)
    (h : s.Settled params channel address) :
    (s.processCh1 params answer).Agrees params channel address := by
  have hreports : ∀ value, (s.setCurrentAddress s.message.channel value).Reports params channel
      address ↔ s.Reports params channel address := by
    intro value
    simp only [Reports, setCurrentAddress]
    split_ifs with hthis
    · rw [hthis]
    · rfl
  have hsettled : ∀ value, (s.setCurrentAddress s.message.channel value).Settled params channel
      address := by
    intro value
    unfold Settled
    rw [hreports]
    exact h
  rcases processCh1_cases params answer s with ⟨-, heq⟩ | ⟨-, -, ⟨-, heq⟩ | ⟨-, ⟨⟨tracker, hfound, -⟩,
    heq⟩ | ⟨hzero, heq⟩ | ⟨hcount, heq⟩⟩⟩
  · rw [heq]
    exact Or.inl h
  · rw [heq]
    exact Or.inl (hsettled answer.address)
  · -- The tracker of the last address is still counting, so its exit event waits.
    rw [heq]
    refine ⟨fun hleaves => Or.inl ?_, fun _ => hsettled answer.address⟩
    obtain ⟨hthis, hreported⟩ := hleaves
    have hthis' : s.message.channel = channel := hthis
    have hreported' : s.Reports params channel address := (hreports answer.address).mp hreported
    refine iff_of_true (h.mpr (Or.inl hreported')) ⟨tracker, (tracks_of_tracker? hfound).1, ?_⟩
    rw [(tracks_of_tracker? hfound).2, hthis', hreported']
  · -- The last address was the empty one.
    rw [heq]
    refine ⟨fun hleaves => ?_, fun _ => hsettled answer.address⟩
    obtain ⟨hthis, hreported⟩ := hleaves
    have hthis' : s.message.channel = channel := hthis
    have hreported' : s.Reports params channel address := (hreports answer.address).mp hreported
    unfold Reports at hreported'
    rw [← hthis', hzero, RailcomParams.railcomId12ToAddress_zero] at hreported'
    exact absurd hreported'.symm hne
  · rw [heq]
    refine ⟨fun hleaves htracks => ?_, fun _ => hsettled answer.address⟩
    obtain ⟨hthis, hreported⟩ := hleaves
    have hthis' : s.message.channel = channel := hthis
    have hreported' : s.Reports params channel address := (hreports answer.address).mp hreported
    obtain ⟨tracker, hfound⟩ := tracker?_of_tracks (s := s) htracks
    refine ⟨tracker, (tracks_of_tracker? hfound).1, (tracks_of_tracker? hfound).2, hcount tracker ?_⟩
    rw [hthis', hreported']
    exact hfound

/-! The flow notices every change of an address. -/

/-- One round of an occupancy report. -/
theorem occupancy_spec (answer : DecoderAnswer) (s : RailcomFlow) (channel : Nat) :
    (∀ message ∈ s.queue, message ∈ (s.occupancy answer channel).queue) ∧
    (∀ other, ((s.occupancy answer channel).channels other).lastAddress =
      (s.channels other).lastAddress) ∧
    (∀ other ≠ channel, (s.occupancy answer channel).channels other = s.channels other) ∧
    (((s.occupancy answer channel).channels channel).currentAddress ≠
        ((s.occupancy answer channel).channels channel).lastAddress →
      fakeFeedback channel ∈ (s.occupancy answer channel).queue) := by
  have hlast : ∀ other, ((s.setCurrentAddress channel (answer.occupied channel)).channels
      other).lastAddress = (s.channels other).lastAddress := by
    intro other
    simp only [setCurrentAddress]
    split_ifs with heq
    · rw [heq]
    · rfl
  have hother : ∀ other ≠ channel, (s.setCurrentAddress channel (answer.occupied channel)).channels
      other = s.channels other := by
    intro other hne
    simp [setCurrentAddress, hne]
  unfold occupancy
  simp only
  split_ifs with hchanged
  · exact ⟨fun message hmem => List.mem_append_left _ hmem, hlast, hother, fun _ => by simp⟩
  · exact ⟨fun _ => id, hlast, hother, fun hne => absurd hne hchanged⟩

theorem occupancy_noticed (answer : DecoderAnswer) (s : RailcomFlow) (channels : List Nat) :
    let s' := channels.foldl (occupancy answer) s
    (∀ message ∈ s.queue, message ∈ s'.queue) ∧
    (∀ other, (s'.channels other).lastAddress = (s.channels other).lastAddress) ∧
    (∀ other ∉ channels, s'.channels other = s.channels other) ∧
    (∀ other ∈ channels, (s'.channels other).currentAddress ≠ (s'.channels other).lastAddress →
      fakeFeedback other ∈ s'.queue) := by
  induction channels generalizing s with
  | nil => exact ⟨fun _ => id, fun _ => rfl, fun _ _ => rfl, by simp⟩
  | cons channel rest ih =>
    obtain ⟨hqueue, hlast, hother, hfake⟩ := ih (s.occupancy answer channel)
    obtain ⟨hqueue1, hlast1, hother1, hfake1⟩ := occupancy_spec answer s channel
    refine ⟨fun message hmem => hqueue message (hqueue1 message hmem),
      fun other => (hlast other).trans (hlast1 other), fun other hmem => ?_, fun other hmem => ?_⟩
    · rw [List.mem_cons, not_or] at hmem
      exact (hother other hmem.2).trans (hother1 other hmem.1)
    · by_cases hrest : other ∈ rest
      · exact hfake other hrest
      · obtain rfl := (List.mem_cons.mp hmem).resolve_right hrest
        intro hne
        rw [List.foldl_cons, hother other hrest] at hne
        exact hqueue _ (hfake1 hne)

/-- The input lets the scan delete the tracker of an address that channel 1 reported last. -/
def deletesReported (params : RailcomParams) (s : RailcomFlow) : RailcomInput → Bool
  | .flow _ =>
    s.state = .checkTimeouts && (s.trackers.find? s.isExpired).any fun tracker =>
      params.railcomId12ToAddress (s.channels (tracker.key &&& 0xffff)).lastAddress =
        tracker.key >>> 16
  | _ => false

/-- The input lets the decoder ignore the message by which the flow wants to notice that an
occupancy report has changed the address of the channel. -/
def missesChange (params : RailcomParams) (s : RailcomFlow) : RailcomInput → Bool
  | .flow answer =>
    let channel := s.message.channel
    s.state = .processCh1 && channel < params.size && s.message = fakeFeedback channel &&
      (s.channels channel).currentAddress ≠ (s.channels channel).lastAddress && !answer.accepts
  | _ => false

/-- The message of another channel does not stand for this one. -/
theorem Noticed.of_queue (h : s.Noticed channel)
    (hother : s.message.channel ≠ channel) : fakeFeedback channel ∈ s.queue := by
  rcases h with hqueue | ⟨hmessage, -⟩ | ⟨hmessage, -⟩
  · exact hqueue
  · rw [hmessage] at hother
    exact absurd rfl hother
  · exact absurd hmessage hother

/-- A state that goes on to another one that does not look at the decoder yet. -/
theorem Noticed.of_same {s' : RailcomFlow} (h : s.Noticed channel) (hqueue : s'.queue = s.queue)
    (hmessage : s'.message = s.message)
    (hbefore : s.state ∉ [.sendInvalid, .prepareCh1On, .sendEvent])
    (hafter : s'.state ∉ [.idle, .sendInvalid, .prepareCh1On, .sendEvent, .finish]) :
    s'.Noticed channel := by
  rcases h with hmem | ⟨hfake, -⟩ | ⟨-, hstate⟩
  · exact Or.inl (hqueue ▸ hmem)
  · exact Or.inr (Or.inl ⟨hmessage.trans hfake, hafter⟩)
  · exact absurd hstate hbefore

theorem Present.entry (hfits : params.Fits) (h : s.Present params) (hstate : s.state = .entry)
    {answer : DecoderAnswer} (hexpiring : (s.entry params answer).Expiring) :
    (s.entry params answer).Present params := by
  have hagrees : ∀ channel < params.size, ∀ address < 0x4000, address ≠ params.emptyAddress →
      s.Settled params channel address ∨ s.Stale params channel address := by
    intro channel hchannel address haddress hne
    simpa only [Agrees, hstate] using h.agrees channel hchannel address haddress hne
  rcases entry_cases params answer s with ⟨-, heq⟩ | ⟨-, heq⟩ | ⟨-, hovercurrent, heq⟩ |
    ⟨hpending, heq⟩
  · rw [heq] at hexpiring ⊢
    refine ⟨hexpiring, h.keys, ⟨0, 0, by decide, by decide, rfl⟩, by simp, hagrees, ?_⟩
    exact fun channel hchannel hne =>
      (h.noticed channel hchannel hne).of_same rfl rfl (by simp [hstate]) (by simp)
  · obtain ⟨htrackers, -, hevents, hkey⟩ := occupancy_frame answer s (List.range params.size)
    obtain ⟨-, hlast, -, hfake⟩ := occupancy_noticed answer s (List.range params.size)
    rw [heq] at hexpiring ⊢
    refine ⟨hexpiring, htrackers ▸ h.keys, hkey ▸ h.timeoutKey, by simp, ?_, ?_⟩
    · intro channel hchannel address haddress hne
      have hreports : Reports params { (List.range params.size).foldl (occupancy answer) s with
          state := .idle } channel address ↔ s.Reports params channel address := by
        simp only [Reports, hlast]
      refine (hagrees channel hchannel address haddress hne).imp (fun hsettled => ?_)
        (fun hstale => ?_)
      · unfold Settled
        rw [hreports]
        simp only [Tracks, hevents, htrackers]
        exact hsettled
      · unfold Stale
        rw [hreports]
        simp only [Expired, hevents, htrackers]
        exact hstale
    · exact fun channel hchannel hne => Or.inl (hfake channel (List.mem_range.mpr hchannel) hne)
  · rw [heq] at hexpiring ⊢
    refine ⟨hexpiring, h.keys, h.timeoutKey, by simp, hagrees, ?_⟩
    intro channel hchannel hne
    refine Or.inl ((h.noticed channel hchannel hne).of_queue ?_)
    have hsize := hfits.size
    omega
  · rw [heq] at hexpiring ⊢
    refine ⟨hexpiring, h.keys, h.timeoutKey, by simp, ?_, ?_⟩
    · intro channel hchannel address haddress hne
      exact h.settled hpending (hagrees channel hchannel address haddress hne)
    · exact fun channel hchannel hne =>
        (h.noticed channel hchannel hne).of_same rfl rfl (by simp [hstate]) (by simp)

theorem Present.checkTimeouts (hfits : params.Fits) (h : s.Present params)
    (hstate : s.state = .checkTimeouts) {answer : DecoderAnswer}
    (hreported : s.deletesReported params (.flow answer) = false)
    (hexpiring : s.checkTimeouts.Expiring) : s.checkTimeouts.Present params := by
  have hagrees : ∀ channel < params.size, ∀ address < 0x4000, address ≠ params.emptyAddress →
      s.Settled params channel address ∨ s.Stale params channel address := by
    intro channel hchannel address haddress hne
    simpa only [Agrees, hstate] using h.agrees channel hchannel address haddress hne
  have hnoticed : ∀ s' : RailcomFlow, s'.queue = s.queue → s'.message = s.message →
      s'.channels = s.channels →
      s'.state ∉ [.idle, .sendInvalid, .prepareCh1On, .sendEvent, .finish] →
      ∀ channel < params.size,
        (s'.channels channel).currentAddress ≠ (s'.channels channel).lastAddress →
        s'.Noticed channel := by
    intro s' hqueue hmessage hchannels hafter channel hchannel hne
    rw [hchannels] at hne
    exact (h.noticed channel hchannel hne).of_same hqueue hmessage (by simp [hstate]) hafter
  rcases checkTimeouts_cases s with ⟨-, heq⟩ | ⟨-, heq⟩ | ⟨found, -, hfound, heq⟩ | ⟨-, heq⟩
  · rw [heq] at hexpiring ⊢
    exact ⟨hexpiring, h.keys, h.timeoutKey, by simp, hagrees, hnoticed _ rfl rfl rfl (by simp)⟩
  · rw [heq] at hexpiring ⊢
    exact ⟨hexpiring, h.keys, h.timeoutKey, by simp, hagrees, hnoticed _ rfl rfl rfl (by simp)⟩
  · have hfits' := h.keys found (List.mem_of_find?_eq_some hfound)
    rw [heq] at hexpiring ⊢
    refine ⟨hexpiring, fun tracker hmem => h.keys tracker (List.mem_filter.mp hmem).1,
      hfits'.mono hfits.size, by simp, ?_, hnoticed _ rfl rfl rfl (by simp)⟩
    intro channel hchannel address haddress hne
    refine agrees_delete (hagrees channel hchannel address haddress hne) fun hkey hreports => ?_
    have hlt : channel < 2 ^ 16 := by
      have hsize := hfits.size
      omega
    simp only [deletesReported, hstate, hfound, hkey, Option.any_some, trackerKey_and hlt,
      trackerKey_shiftRight hlt, decide_true, Bool.true_and, decide_eq_false_iff_not] at hreported
    exact hreported hreports
  · rw [heq] at hexpiring ⊢
    exact ⟨hexpiring, h.keys, ⟨0, 0, by decide, by decide, rfl⟩, by simp, hagrees,
      hnoticed _ rfl rfl rfl (by simp)⟩

theorem Present.processCh2 (hfits : params.Fits) (h : s.Present params)
    (hstate : s.state = .processCh2) (hexpiring : (s.processCh2 params).Expiring) :
    (s.processCh2 params).Present params := by
  have hagrees : ∀ channel < params.size, ∀ address < 0x4000, address ≠ params.emptyAddress →
      s.Settled params channel address := by
    intro channel hchannel address haddress hne
    simpa only [Agrees, hstate] using h.agrees channel hchannel address haddress hne
  have hbefore : s.state ∉ [.sendInvalid, .prepareCh1On, .sendEvent] := by simp [hstate]
  rcases processCh2_cases params s with heq |
    ⟨address, key, hdcc, hvalid, hchannel, hkey, ⟨-, heq⟩ | ⟨_, -, heq⟩⟩
  · rw [heq] at hexpiring ⊢
    exact ⟨hexpiring, h.keys, h.timeoutKey, by simp, hagrees, fun channel hchannel hne =>
      (h.noticed channel hchannel hne).of_same rfl rfl hbefore (by simp)⟩
  · have hlt : address < 0x4000 := by
      subst hdcc
      exact RailcomParams.dccToAddress_lt hfits hvalid
    have hkeyFits : KeyFits params.size key := ⟨address, _, hlt, hchannel, hkey⟩
    rw [heq] at hexpiring ⊢
    refine ⟨hexpiring, ?_, hkeyFits.mono hfits.size, by simp, ?_, fun channel hchannel hne =>
      (h.noticed channel hchannel hne).of_same rfl rfl hbefore (by simp)⟩
    · intro tracker hmem
      rcases mem_insert.mp hmem with rfl | hold
      · exact hkeyFits
      · exact h.keys tracker hold
    · intro channel hchannel' address' haddress' hne
      exact agrees_insert
        (hagrees channel hchannel' address' haddress' hne)
  · rw [heq] at hexpiring ⊢
    refine ⟨hexpiring, ?_, h.timeoutKey, by simp, ?_, fun channel hchannel hne =>
      (h.noticed channel hchannel hne).of_same rfl rfl hbefore (by simp)⟩
    · intro _ hmem
      obtain ⟨tracker, hold, rfl⟩ := List.mem_map.mp hmem
      have hfit := h.keys tracker hold
      split_ifs with hthis
      · exact hthis ▸ hfit
      · exact hfit
    · intro channel hchannel' address' haddress' hne
      exact settled_seen (hagrees channel hchannel' address' haddress' hne)

/-- The current address of another channel is not changed. -/
theorem setCurrentAddress_other {other value : Nat} (hne : other ≠ channel) :
    (s.setCurrentAddress channel value).channels other = s.channels other := by
  simp [setCurrentAddress, hne]

theorem Present.processCh1 (h : s.Present params) (hstate : s.state = .processCh1)
    {answer : DecoderAnswer} (hmisses : s.missesChange params (.flow answer) = false)
    (hexpiring : (s.processCh1 params answer).Expiring) :
    (s.processCh1 params answer).Present params := by
  have hagrees : ∀ channel < params.size, ∀ address < 0x4000, address ≠ params.emptyAddress →
      (s.processCh1 params answer).Agrees params channel address := by
    intro channel hchannel address haddress hne
    refine agrees_processCh1 answer hne ?_
    simpa only [Agrees, hstate] using h.agrees channel hchannel address haddress hne
  -- A change of another channel waits in the queue for its own message.
  have hother : ∀ channel < params.size, channel ≠ s.message.channel →
      ((s.setCurrentAddress s.message.channel answer.address).channels channel).currentAddress ≠
        ((s.setCurrentAddress s.message.channel answer.address).channels channel).lastAddress →
      fakeFeedback channel ∈ s.queue := by
    intro channel hchannel hne hchanged
    rw [setCurrentAddress_other hne] at hchanged
    exact (h.noticed channel hchannel hchanged).of_queue (Ne.symm hne)
  have hmoved : ∀ s' : RailcomFlow, s'.queue = s.queue → s'.message = s.message →
      s'.channels = (s.setCurrentAddress s.message.channel answer.address).channels →
      s'.state ∈ [.sendInvalid, .prepareCh1On, .sendEvent] → ∀ channel < params.size,
      (s'.channels channel).currentAddress ≠ (s'.channels channel).lastAddress →
      s'.Noticed channel := by
    intro s' hqueue hmessage hchannels hafter channel hchannel hchanged
    rw [hchannels] at hchanged
    by_cases hthis : channel = s.message.channel
    · exact Or.inr (Or.inr ⟨by rw [hmessage, hthis], hafter⟩)
    · exact Or.inl (hqueue ▸ hother channel hchannel hthis hchanged)
  rcases processCh1_cases params answer s with ⟨hskip, heq⟩ | ⟨hchannel, -, ⟨hsame, heq⟩ |
    ⟨-, ⟨-, heq⟩ | ⟨-, heq⟩ | ⟨-, heq⟩⟩⟩
  · rw [heq] at hexpiring hagrees ⊢
    refine ⟨hexpiring, h.keys, h.timeoutKey, by simp, hagrees, ?_⟩
    intro channel hchannel hchanged
    rcases h.noticed channel hchannel hchanged with hqueue | ⟨hmessage, -⟩ | ⟨-, hafter⟩
    · exact Or.inl hqueue
    · -- The message is the one that the flow sent itself, and the decoder ignored it.
      exfalso
      have hthis : s.message.channel = channel := by rw [hmessage]; rfl
      rcases hskip with hsize | haccepts
      · omega
      · simp [missesChange, hstate, hmessage, haccepts, hchannel, fakeFeedback] at hmisses
        exact hchanged hmisses
    · simp [hstate] at hafter
  · rw [heq] at hexpiring hagrees ⊢
    refine ⟨hexpiring, h.keys, h.timeoutKey, by simp, hagrees, ?_⟩
    intro channel hchannel' hchanged
    by_cases hthis : channel = s.message.channel
    · exfalso
      subst hthis
      simp [setCurrentAddress, hsame] at hchanged
    · exact Or.inl (hother channel hchannel' hthis hchanged)
  all_goals
    rw [heq] at hexpiring hagrees ⊢
    exact ⟨hexpiring, h.keys, h.timeoutKey, fun _ => hchannel, hagrees,
      hmoved _ rfl rfl rfl (by simp)⟩

/-- Once the last address of the channel is the current one, only other channels can have a change
to notice. -/
theorem noticed_keepAddress (h : s.Present params) {s' : RailcomFlow} (hqueue : s'.queue = s.queue)
    (hchannels : s'.channels = (s.keepAddress s.message.channel).channels)
    (hchannel : channel < params.size)
    (hchanged : (s'.channels channel).currentAddress ≠ (s'.channels channel).lastAddress) :
    s'.Noticed channel := by
  rw [hchannels] at hchanged
  by_cases hthis : channel = s.message.channel
  · exfalso
    subst hthis
    simp [keepAddress] at hchanged
  · have hsame : (s.keepAddress s.message.channel).channels channel = s.channels channel := by
      simp [keepAddress, hthis]
    rw [hsame] at hchanged
    exact Or.inl (hqueue ▸ (h.noticed channel hchannel hchanged).of_queue (Ne.symm hthis))

theorem Present.prepareCh1On (h : s.Present params) (hstate : s.state = .prepareCh1On)
    (hexpiring : s.prepareCh1On.Expiring) : s.prepareCh1On.Present params := by
  have hmessage := h.messageChannel (by simp [hstate])
  unfold RailcomFlow.prepareCh1On at hexpiring ⊢
  simp only at hexpiring ⊢
  split_ifs at hexpiring ⊢ with hempty
  · refine ⟨hexpiring, h.keys, h.timeoutKey, by simp, ?_, fun channel hchannel hchanged =>
      noticed_keepAddress h rfl rfl hchannel hchanged⟩
    intro channel hchannel address haddress hne
    have hagrees := h.agrees channel hchannel address haddress hne
    simp only [Agrees, hstate] at hagrees
    refine agrees_keepAddress hagrees rfl rfl ?_
    rw [if_neg]
    · rfl
    · rintro ⟨-, hzero⟩
      rw [hempty.1, RailcomParams.railcomId12ToAddress_zero] at hzero
      exact hne hzero
  · refine ⟨hexpiring, h.keys, h.timeoutKey, fun _ => hmessage, ?_, ?_⟩
    · intro channel hchannel address haddress hne
      have hagrees := h.agrees channel hchannel address haddress hne
      simp only [Agrees, hstate] at hagrees
      exact hagrees
    · intro channel hchannel hchanged
      rcases h.noticed channel hchannel hchanged with hqueue | ⟨-, hafter⟩ | ⟨hthis, -⟩
      · exact Or.inl hqueue
      · simp [hstate] at hafter
      · exact Or.inr (Or.inr ⟨hthis, by simp⟩)

theorem Present.sendEvent (hfits : params.Fits) (h : s.Present params)
    (hstate : s.state = .sendEvent) (hexpiring : (s.sendEvent params).Expiring) :
    (s.sendEvent params).Present params := by
  have hmessage := h.messageChannel (by simp [hstate])
  refine ⟨hexpiring, h.keys, h.timeoutKey, by simp [RailcomFlow.sendEvent], ?_,
    fun channel hchannel hchanged =>
      noticed_keepAddress h rfl rfl hchannel hchanged⟩
  intro channel hchannel address haddress hne
  have hagrees := h.agrees channel hchannel address haddress hne
  simp only [Agrees, hstate] at hagrees
  exact agrees_keepAddress hagrees rfl rfl
    (entered_send hfits hchannel haddress (Nat.lt_of_lt_of_le hmessage hfits.size)
      (RailcomParams.railcomId12ToAddress_lt hfits _) true)

/-- Every state of the flow keeps the invariant. -/
theorem Present.runState (hfits : params.Fits) (h : s.Present params) {answer : DecoderAnswer}
    {s' : RailcomFlow} (hreported : s.deletesReported params (.flow answer) = false)
    (hmisses : s.missesChange params (.flow answer) = false)
    (hrun : s.runState params answer = some s') : s'.Present params := by
  have hexpiring := h.expiring.runState hrun
  unfold RailcomFlow.runState at hrun
  cases hstate : s.state <;> simp only [hstate] at hrun
  case idle =>
    split at hrun <;> cases hrun
    next message rest hqueue =>
    refine ⟨hexpiring, h.keys, h.timeoutKey, by simp, ?_, ?_⟩
    · intro channel hchannel address haddress hne
      have hagrees := h.agrees channel hchannel address haddress hne
      simp only [Agrees, hstate] at hagrees
      exact hagrees
    · intro channel hchannel hchanged
      rcases h.noticed channel hchannel hchanged with hmem | ⟨-, hafter⟩ | ⟨-, hafter⟩
      · rw [hqueue] at hmem
        rcases List.mem_cons.mp hmem with heq | hrest
        · exact Or.inr (Or.inl ⟨heq.symm, by simp⟩)
        · exact Or.inl hrest
      · simp [hstate] at hafter
      · simp [hstate] at hafter
  case entry =>
    cases hrun
    exact h.entry hfits hstate hexpiring
  case checkTimeouts =>
    cases hrun
    exact h.checkTimeouts hfits hstate hreported hexpiring
  case sendTimeoutEvent =>
    cases hrun
    refine ⟨hexpiring, h.keys, h.timeoutKey, by simp [RailcomFlow.sendTimeoutEvent], ?_, ?_⟩
    · exact fun channel hchannel address haddress hne => agrees_sendTimeoutEvent hfits hchannel
        haddress h.timeoutKey hstate (h.agrees channel hchannel address haddress hne)
    · exact fun channel hchannel hchanged => (h.noticed channel hchannel hchanged).of_same rfl rfl
        (by simp [hstate]) (by simp [RailcomFlow.sendTimeoutEvent])
  case processCh2 =>
    cases hrun
    exact h.processCh2 hfits hstate hexpiring
  case sendCh2Event =>
    cases hrun
    refine ⟨hexpiring, h.keys, h.timeoutKey, by simp [RailcomFlow.sendCh2Event], ?_, ?_⟩
    · exact fun channel hchannel address haddress hne => agrees_sendCh2Event hfits hchannel haddress
        h.timeoutKey hstate (h.agrees channel hchannel address haddress hne)
    · exact fun channel hchannel hchanged => (h.noticed channel hchannel hchanged).of_same rfl rfl
        (by simp [hstate]) (by simp [RailcomFlow.sendCh2Event])
  case processCh1 =>
    cases hrun
    exact h.processCh1 hstate hmisses hexpiring
  case sendInvalid =>
    cases hrun
    have hmessage := h.messageChannel (by simp [hstate])
    refine ⟨hexpiring, h.keys, h.timeoutKey, fun _ => hmessage, ?_, ?_⟩
    · exact fun channel hchannel address haddress hne => agrees_sendInvalid hfits hchannel haddress
        hmessage hstate (h.agrees channel hchannel address haddress hne)
    · intro channel hchannel hchanged
      rcases h.noticed channel hchannel hchanged with hqueue | ⟨-, hafter⟩ | ⟨hthis, -⟩
      · exact Or.inl hqueue
      · simp [hstate] at hafter
      · exact Or.inr (Or.inr ⟨hthis, by simp [RailcomFlow.sendInvalid]⟩)
  case prepareCh1On =>
    cases hrun
    exact h.prepareCh1On hstate hexpiring
  case sendChannelEmpty =>
    cases hrun
    refine ⟨hexpiring, h.keys, h.timeoutKey, by simp [RailcomFlow.sendChannelEmpty], ?_, ?_⟩
    · intro channel hchannel address haddress hne
      have hagrees := h.agrees channel hchannel address haddress hne
      simp only [Agrees, hstate] at hagrees
      exact agrees_sendChannelEmpty hfits hchannel haddress hne h.timeoutKey hagrees
    · exact fun channel hchannel hchanged => (h.noticed channel hchannel hchanged).of_same rfl rfl
        (by simp [hstate]) (by simp [RailcomFlow.sendChannelEmpty])
  case sendEvent =>
    cases hrun
    exact h.sendEvent hfits hstate hexpiring
  case finish =>
    cases hrun
    refine ⟨hexpiring, h.keys, h.timeoutKey, by simp, ?_, ?_⟩
    · intro channel hchannel address haddress hne
      have hagrees := h.agrees channel hchannel address haddress hne
      simp only [Agrees, hstate] at hagrees
      exact hagrees
    · intro channel hchannel hchanged
      rcases h.noticed channel hchannel hchanged with hqueue | ⟨-, hafter⟩ | ⟨-, hafter⟩
      · exact Or.inl hqueue
      · simp [hstate] at hafter
      · simp [hstate] at hafter

theorem Present.step (hfits : params.Fits) (h : s.Present params) {input : RailcomInput}
    {s' : RailcomFlow} (hovertakes : s.overtakesScan params input = false)
    (hreported : s.deletesReported params input = false)
    (hmisses : s.missesChange params input = false) (hstep : s.step params input = some s') :
    s'.Present params := by
  have hexpiring := h.expiring.step hovertakes hstep
  cases input with
  | arrive message =>
    cases hstep
    refine ⟨hexpiring, h.keys, h.timeoutKey, h.messageChannel, h.agrees, ?_⟩
    intro channel hchannel hchanged
    rcases h.noticed channel hchannel hchanged with hqueue | hmessage | hmessage
    · exact Or.inl (List.mem_append_left _ hqueue)
    · exact Or.inr (Or.inl hmessage)
    · exact Or.inr (Or.inr hmessage)
  | dccPacket b0 b1 =>
    cases hstep
    have hsame : SameTrackers s (s.handleDccPacket params b0 b1) :=
      sameTrackers_handleDccPacket b0 b1
    have hframe : (s.handleDccPacket params b0 b1).state = s.state ∧
        (s.handleDccPacket params b0 b1).message = s.message ∧
        (s.handleDccPacket params b0 b1).queue = s.queue ∧
        (s.handleDccPacket params b0 b1).channels = s.channels ∧
        (s.handleDccPacket params b0 b1).currentTimeoutKey = s.currentTimeoutKey ∧
        (s.handleDccPacket params b0 b1).events = s.events := by
      unfold handleDccPacket
      simp only
      split_ifs <;> exact ⟨rfl, rfl, rfl, rfl, rfl, rfl⟩
    obtain ⟨hstate, hmessage, hqueue, hchannels, hkey, hevents⟩ := hframe
    refine ⟨hexpiring, ?_, hkey ▸ h.timeoutKey, ?_, ?_, ?_⟩
    · intro tracker hmem
      obtain ⟨old, hold, hkey⟩ := key_of_mem_handleDccPacket hmem
      exact hkey ▸ h.keys old hold
    · rw [hstate, hmessage]
      exact h.messageChannel
    · exact fun channel hchannel address haddress hne =>
        (h.agrees channel hchannel address haddress hne).of_sameTrackers hsame hstate hmessage
          hchannels hkey hevents
    · intro channel hchannel hchanged
      rw [hchannels] at hchanged
      have hnoticed := h.noticed channel hchannel hchanged
      unfold Noticed at hnoticed ⊢
      rwa [hstate, hmessage, hqueue]
  | flow answer => exact h.runState hfits hreported hmisses hstep

end

/-- The flow waits, has no message to handle and no deletion pending. -/
def atRest (s : RailcomFlow) : Bool :=
  s.state = .idle && s.queue = [] && s.pendingDeletions = false

/-- The last event of each locomotive is its entry event exactly if the current address of channel 1
is its address or channel 2 keeps a tracker for it. -/
def EventsAgree (params : RailcomParams) (s : RailcomFlow) : Prop :=
  ∀ channel < params.size, ∀ address < 0x4000, address ≠ params.emptyAddress →
    (entered params s.events channel address = true ↔
      params.railcomId12ToAddress (s.channels channel).currentAddress = address ∨
      (s.tracker? (trackerKey address channel)).isSome = true)

/-- In a run in which no DCC packet overtakes the timeout scan, the scan deletes no tracker of an
address that channel 1 reported last, and the decoder does not ignore the message by which the flow
notices an occupancy report, the events agree with the presence whenever the flow is at rest. -/
theorem events_agree {params : RailcomParams} (hfits : params.Fits) (history : List RailcomInput)
    (hinputs : Trace.EachStep (step params) (fun _ s input _ =>
      s.overtakesScan params input = false ∧ s.deletesReported params input = false ∧
        s.missesChange params input = false) start history) :
    Trace.Always (step params) (fun _ s => s.atRest = true → s.EventsAgree params) start
      history := by
  have hpresent : Trace.Always (step params) (fun _ s => s.Present params) start history :=
    Trace.always (present_start params)
      (fun _ _ _ _ _ h hinput hstep => h.step hfits hinput.1 hinput.2.1 hinput.2.2 hstep) hinputs
  intro past future s heq hrun hrest channel hchannel address haddress hne
  have h := hpresent past future s heq hrun
  simp only [atRest, Bool.and_eq_true, decide_eq_true_eq] at hrest
  obtain ⟨⟨hstate, hqueue⟩, hpending⟩ := hrest
  have hagrees := h.agrees channel hchannel address haddress hne
  simp only [Agrees, hstate] at hagrees
  have hsettled := h.settled hpending hagrees
  have hcurrent : (s.channels channel).currentAddress = (s.channels channel).lastAddress := by
    by_contra hchanged
    rcases h.noticed channel hchannel hchanged with hmem | ⟨-, hafter⟩ | ⟨-, hafter⟩
    · simp [hqueue] at hmem
    · simp [hstate] at hafter
    · simp [hstate] at hafter
  unfold Settled Reports at hsettled
  rw [hsettled, hcurrent]
  refine or_congr Iff.rfl ⟨fun htracks => ?_, fun hsome => ?_⟩
  · exact Option.isSome_iff_exists.mpr (tracker?_of_tracks htracks)
  · obtain ⟨tracker, hfound⟩ := Option.isSome_iff_exists.mp hsome
    exact ⟨tracker, (tracks_of_tracker? hfound).1, (tracks_of_tracker? hfound).2⟩

theorem oneChannel_fits : oneChannel.Fits := ⟨by decide, by decide, by decide⟩

/-- Channel 1 reports the locomotive with a short address, and the flow handles it. -/
def report (address : Nat) : List RailcomInput :=
  .arrive ⟨0, [0], [], 0⟩ :: List.replicate 8 (.flow ⟨true, address, fun _ => 0⟩)

theorem events_agree_twoLocomotives :
    Trace.Always (step oneChannel) (fun _ s => s.atRest = true → s.EventsAgree oneChannel) start
      (reply 3 ++ report 5) :=
  events_agree oneChannel_fits (reply 3 ++ report 5) (fun past input future s s' heq hrun hstep => by
    have hall : Trace.check (step oneChannel) (fun s input => !s.overtakesScan oneChannel input &&
        !s.deletesReported oneChannel input && !s.missesChange oneChannel input) start
        (reply 3 ++ report 5) = true := by decide
    have hcheck := Trace.eachStep_of_check hall
    simpa [and_assoc] using hcheck past input future s s' heq hrun hstep)

/-- Channel 1 and channel 2 both see locomotive 3; it stops replying on channel 2, and the scan
sends its exit event although channel 1 still reports it. -/
theorem exit_while_reported :
    ¬ Trace.Always (step oneChannel) (fun _ s => s.atRest = true → s.EventsAgree oneChannel) start
      (report 3 ++ reply 3 ++ List.replicate 4 (.dccPacket 3 0) ++
        .arrive ⟨0xfe, [], [], 0⟩ :: List.replicate 6 silent) := by
  intro h
  have hrun : (Trace.run (step oneChannel) start
      (report 3 ++ reply 3 ++ List.replicate 4 (.dccPacket 3 0) ++
        .arrive ⟨0xfe, [], [], 0⟩ :: List.replicate 6 silent)).map
      (fun s => (s.atRest, entered oneChannel s.events 0 0x3803, (s.channels 0).currentAddress)) =
      some (true, false, 3) := by decide
  obtain ⟨s, hs, hfields⟩ := Option.map_eq_some_iff.mp hrun
  simp only [Prod.mk.injEq] at hfields
  obtain ⟨hrest, hout, hcurrent⟩ := hfields
  have hagree := h _ [] s (by simp) hs hrest 0 (by decide) 0x3803 (by decide) (by decide)
  rw [hcurrent, hout] at hagree
  exact Bool.false_ne_true (hagree.mpr (Or.inl (by decide)))

end RailcomFlow

end OpenmrnCue.CommandStation
