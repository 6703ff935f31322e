import OpenmrnCue.Library.Trace
import Mathlib.Data.UInt

/-! `MobileStationSlave.cxx`: the slave side of the connection to a Mobile Station.  A keepalive
flow acts at each expiry of its timer, and an init flow at each CAN frame; they share the state
`StateImpl`, whose counter of unanswered keepalives decides when the master is taken for dead. -/

namespace OpenmrnCue.MobileStation

/-! ### Frames -/

/-- A CAN frame with an extended identifier. -/
structure Frame where
  id : UInt32
  data : List UInt8
  deriving DecidableEq

/-- A constant packet in the layout of the MCP2515. -/
structure McpPacket where
  sidh : UInt8
  sidl : UInt8
  eidh : UInt8
  eidl : UInt8
  data : List UInt8

/-- `mcp_to_frame` of a packet with the flag of an extended identifier, which all of them have. -/
def mcpToFrame (packet : McpPacket) : Frame :=
  let id := packet.sidh.toUInt32
  let id := id <<< 3 ||| (packet.sidl >>> 5).toUInt32
  let id := id <<< 2 ||| (packet.sidl &&& 3).toUInt32
  let id := id <<< 8 ||| packet.eidh.toUInt32
  { id := id <<< 8 ||| packet.eidl.toUInt32, data := packet.data }

/-- Number of missed keepalive periods before we conclude the other side is dead and force back
to init state. -/
def mostaSlaveReinitCount : Nat := 8
def mostaSlaveDiscoverId : UInt32 := 0x1c00007e
def mostaSlaveKeepalivePingId : UInt32 := 0x0c000380
def mostaMasterKeepalivePongId : UInt32 := 0x08000900
def mostaMasterPingId : UInt32 := 0x0c000380
def mostaMasterLoginId : UInt32 := 0x00000380
def mostaMasterSlaveQueryId : UInt32 := 0x1c0000fe
def mostaMasterSlaveAliveId : UInt32 := 0x1c0380fe
def mostaSlaveAddressMask : UInt32 := (0b01111100 : UInt32) <<< 8

def mmaPktAliveack : McpPacket := ⟨0x60, 0x08, 0x03, 0x81, [0, 0, 0, 1, 0, 5, 0xe6, 0x5e]⟩
def mmaPktQ2 : McpPacket := ⟨0xe0, 0xa8, 0x80, 0x7e, []⟩
def mmaPktQ3 : McpPacket := ⟨0xfc, 0xc9, 0x00, 0x7e, []⟩
def mmaPktQ4 : McpPacket := ⟨0xeb, 0xa9, 0x80, 0x7e, []⟩
def mmaPktHstx1 : McpPacket := ⟨0xe0, 0x0a, 0x00, 0x7e, [0, 5, 0xe6, 0x5e, 0, 2, 0, 3]⟩
def mmaPktHstx2 : McpPacket := ⟨0xe0, 0x0a, 0x80, 0x7e, [0, 0, 0, 0x97, 2, 0, 0xc0, 0x11]⟩
def mmaPktHstx3 : McpPacket := ⟨0xe0, 0x0b, 0x00, 0x7e, [1, 1, 2, 0x14, 0, 0, 0xc0, 0x11]⟩
def mmaPktHstx4 : McpPacket := ⟨0xe0, 0x0b, 0x80, 0x7e, [0, 0, 0x40, 0x11, 1, 7, 0, 0x2a]⟩

def slaveInitSequence : List McpPacket :=
  [mmaPktQ2, mmaPktQ3, mmaPktQ4, mmaPktHstx1, mmaPktHstx2, mmaPktHstx3, mmaPktHstx4]

/-! ### The state and the two flows -/

inductive SlaveState where
  | init
  | handshake
  | keepalive
  deriving DecidableEq

/-- `MobileStationSlave::StateImpl`, with its bit fields. -/
structure StateImpl where
  state : SlaveState
  hasIncomingKeepalive : Bool
  numKeepaliveNoAnswer : BitVec 4
  slaveAddress : UInt8
  slaveLoginOffset : BitVec 4
  deriving DecidableEq

/-- The constructor leaves the login offset alone; it is set before it is used. -/
def StateImpl.initial : StateImpl :=
  { state := .init, hasIncomingKeepalive := false, numKeepaliveNoAnswer := 0, slaveAddress := 0,
    slaveLoginOffset := 0 }

/-- What the keepalive flow goes on with. -/
inductive KeepaliveAction where
  | callDelay
  | sendDiscover
  | sendPing
  | again
  deriving DecidableEq

/-- `SlaveKeepaliveFlow::maybe_send_keepalive`. -/
def maybeSendKeepalive (s : StateImpl) : StateImpl × KeepaliveAction :=
  if s.hasIncomingKeepalive then ({ s with hasIncomingKeepalive := false }, .callDelay)
  else if s.state = .init ∨ s.state = .handshake then (s, .sendDiscover)
  else if (s.numKeepaliveNoAnswer + 1).toNat > mostaSlaveReinitCount then
    ({ s with numKeepaliveNoAnswer := s.numKeepaliveNoAnswer + 1, state := .init }, .again)
  else ({ s with numKeepaliveNoAnswer := s.numKeepaliveNoAnswer + 1 }, .sendPing)

/-- The frames of `send_discover` and `send_ping`. -/
def KeepaliveAction.frames : KeepaliveAction → List Frame
  | .sendDiscover => [{ id := mostaSlaveDiscoverId, data := [] }]
  | .sendPing => [{ id := mostaSlaveKeepalivePingId, data := [0, 0, 0, 0] }]
  | _ => []

/-- An expiry of the timer: the flow calls `maybe_send_keepalive`, and once more where it asks for
that, until it is back at `call_delay`. -/
def timerExpires (s : StateImpl) : StateImpl × List Frame :=
  match maybeSendKeepalive s with
  | (t, .again) =>
    -- the state is `init` by now, so that the second call does not come back for a third
    let (u, action) := maybeSendKeepalive t
    (u, action.frames)
  | (t, action) => (t, action.frames)

/-- The packet of the login sequence with the address of the slave in its identifier. -/
def StateImpl.addressed (s : StateImpl) (packet : McpPacket) : Frame :=
  let frame := mcpToFrame packet
  { frame with id := frame.id ||| s.slaveAddress.toUInt32 <<< 8 }

/-- `send_sequence` and `next_sequence`, from the packet at the login offset to the last. -/
def sendSequence (s : StateImpl) : StateImpl × List Frame :=
  ({ s with slaveLoginOffset := slaveInitSequence.length },
    (slaveInitSequence.drop s.slaveLoginOffset.toNat).map s.addressed)

/-- `SlaveInitFlow::entry` and the states that it calls, for a frame with the given identifier. -/
def entry (id : UInt32) (s : StateImpl) : StateImpl × List Frame :=
  if id = mostaMasterKeepalivePongId then
    ({ s with state := .keepalive, numKeepaliveNoAnswer := 0 }, [])
  else if id = mostaMasterPingId then
    ({ s with state := .keepalive, numKeepaliveNoAnswer := 0 }, [mcpToFrame mmaPktAliveack])
  else if id = mostaMasterLoginId then
    ({ s with state := .handshake, hasIncomingKeepalive := true },
      [{ id := mostaSlaveDiscoverId, data := [] }])
  else if id &&& ~~~mostaSlaveAddressMask = mostaMasterSlaveQueryId then
    sendSequence { s with slaveAddress := ((id &&& mostaSlaveAddressMask) >>> 8).toUInt8,
                          slaveLoginOffset := 0 }
  else if id &&& ~~~mostaSlaveAddressMask = mostaMasterSlaveAliveId then
    ({ s with hasIncomingKeepalive := true, state := .keepalive }, [])
  else (s, [])

/-- What the two flows react to. -/
inductive Input where
  | expiry
  | frame (id : UInt32)
  deriving DecidableEq

def receive (s : StateImpl) : Input → StateImpl × List Frame
  | .expiry => timerExpires s
  | .frame id => entry id s

/-- The state after an input.  An input of either kind can come in every state. -/
def next (s : StateImpl) (input : Input) : Option StateImpl := some (receive s input).1

example : (entry 0x1c0058fe .initial).2.map Frame.id =
    [0x1c14d87e, 0x1f99587e, 0x1d75d87e, 0x1c02587e, 0x1c02d87e, 0x1c03587e, 0x1c03d87e] := by
  decide

/-- The second call of `maybe_send_keepalive` is the last one. -/
theorem maybeSendKeepalive_again {s t : StateImpl} (h : maybeSendKeepalive s = (t, .again)) :
    maybeSendKeepalive t = (t, .sendDiscover) := by
  unfold maybeSendKeepalive at h
  split at h
  · cases h
  · split at h
    · cases h
    · split at h
      · cases h
        simp_all [maybeSendKeepalive]
      · cases h

/-- Whether the master says with a frame that the slave is alive. -/
def IsAlive (id : UInt32) : Prop := id &&& ~~~mostaSlaveAddressMask = mostaMasterSlaveAliveId

instance (id : UInt32) : Decidable (IsAlive id) :=
  inferInstanceAs (Decidable (id &&& ~~~mostaSlaveAddressMask = mostaMasterSlaveAliveId))

/-- Whether a frame comes from a master that answers: a pong, a ping or a slave-alive frame. -/
def IsAnswer (id : UInt32) : Prop :=
  id = mostaMasterKeepalivePongId ∨ id = mostaMasterPingId ∨ IsAlive id

instance (id : UInt32) : Decidable (IsAnswer id) :=
  inferInstanceAs (Decidable (_ ∨ _ ∨ _))

section

variable {id : UInt32} {s t : StateImpl}

theorem ne_of_masked {v other : UInt32} (h : id &&& ~~~mostaSlaveAddressMask = v)
    (hother : other &&& ~~~mostaSlaveAddressMask ≠ v) : id ≠ other := by
  rintro rfl
  exact hother h

/-- Every packet that answers a query carries the address of the query. -/
theorem entry_query (h : id &&& ~~~mostaSlaveAddressMask = mostaMasterSlaveQueryId) :
    (entry id s).2 = slaveInitSequence.map (entry id s).1.addressed := by
  rw [entry, if_neg (ne_of_masked h (by decide)), if_neg (ne_of_masked h (by decide)),
    if_neg (ne_of_masked h (by decide)), if_pos h]
  rfl

theorem entry_alive (h : IsAlive id) :
    (entry id s).1 = { s with hasIncomingKeepalive := true, state := .keepalive } := by
  have hquery : ¬ id &&& ~~~mostaSlaveAddressMask = mostaMasterSlaveQueryId := by
    rw [IsAlive] at h
    rw [h]
    decide
  rw [entry, if_neg (ne_of_masked h (by decide)), if_neg (ne_of_masked h (by decide)),
    if_neg (ne_of_masked h (by decide)), if_neg hquery, if_pos (by exact h)]

/-- What a frame does to the state. -/
theorem entry_cases (id : UInt32) (s : StateImpl) :
    ((id = mostaMasterKeepalivePongId ∨ id = mostaMasterPingId) ∧
      (entry id s).1 = { s with state := .keepalive, numKeepaliveNoAnswer := 0 }) ∨
    (IsAlive id ∧
      (entry id s).1 = { s with hasIncomingKeepalive := true, state := .keepalive }) ∨
    (¬ IsAnswer id ∧ (entry id s).1.numKeepaliveNoAnswer = s.numKeepaliveNoAnswer ∧
      ((entry id s).1.state = .keepalive → s.state = .keepalive) ∧
      (s.hasIncomingKeepalive = true → (entry id s).1.hasIncomingKeepalive = true)) := by
  unfold entry
  split
  case isTrue hpong => exact .inl ⟨.inl hpong, rfl⟩
  case isFalse hpong =>
  split
  case isTrue hping => exact .inl ⟨.inr hping, rfl⟩
  case isFalse hping =>
  have hanswer : IsAnswer id → IsAlive id := fun h => (h.resolve_left hpong).resolve_left hping
  split
  case isTrue hlogin =>
    refine .inr (.inr ⟨fun h => ?_, rfl, fun h => (by cases h), fun _ => rfl⟩)
    exact ne_of_masked (hanswer h) (by decide) hlogin
  case isFalse =>
  split
  case isTrue hquery =>
    refine .inr (.inr ⟨fun h => ?_, rfl, fun h => h, fun h => h⟩)
    have halive := hanswer h
    rw [IsAlive, hquery] at halive
    exact absurd halive (by decide)
  case isFalse =>
  split
  case isTrue halive => exact .inr (.inl ⟨halive, rfl⟩)
  case isFalse halive =>
    exact .inr (.inr ⟨fun h => halive (hanswer h), rfl, fun h => h, fun h => h⟩)

/-- What an expiry of the timer does to the state. -/
theorem timerExpires_cases (s : StateImpl) :
    (s.hasIncomingKeepalive = true ∧
      (timerExpires s).1 = { s with hasIncomingKeepalive := false }) ∨
    (s.hasIncomingKeepalive = false ∧ s.state ≠ .keepalive ∧ (timerExpires s).1 = s) ∨
    (s.hasIncomingKeepalive = false ∧ s.state = .keepalive ∧
      (s.numKeepaliveNoAnswer + 1).toNat ≤ mostaSlaveReinitCount ∧
      (timerExpires s).1 = { s with numKeepaliveNoAnswer := s.numKeepaliveNoAnswer + 1 }) ∨
    (s.hasIncomingKeepalive = false ∧ s.state = .keepalive ∧
      mostaSlaveReinitCount < (s.numKeepaliveNoAnswer + 1).toNat ∧
      (timerExpires s).1 =
        { s with numKeepaliveNoAnswer := s.numKeepaliveNoAnswer + 1, state := .init }) := by
  by_cases hflag : s.hasIncomingKeepalive = true
  · have hsend : maybeSendKeepalive s = ({ s with hasIncomingKeepalive := false }, .callDelay) := by
      rw [maybeSendKeepalive, if_pos hflag]
    exact .inl ⟨hflag, by rw [timerExpires, hsend]⟩
  · have hfalse : s.hasIncomingKeepalive = false := Bool.eq_false_of_not_eq_true hflag
    by_cases hstate : s.state = .init ∨ s.state = .handshake
    · have hsend : maybeSendKeepalive s = (s, .sendDiscover) := by
        rw [maybeSendKeepalive, if_neg hflag, if_pos hstate]
      refine .inr (.inl ⟨hfalse, fun h => ?_, by rw [timerExpires, hsend]⟩)
      rcases hstate with hinit | hhandshake
      · cases h.symm.trans hinit
      · cases h.symm.trans hhandshake
    · have hkeep : s.state = .keepalive := by
        cases hs : s.state with
        | init => exact absurd (.inl hs) hstate
        | handshake => exact absurd (.inr hs) hstate
        | keepalive => rfl
      by_cases hcount : mostaSlaveReinitCount < (s.numKeepaliveNoAnswer + 1).toNat
      · have hsend : maybeSendKeepalive s =
            ({ s with numKeepaliveNoAnswer := s.numKeepaliveNoAnswer + 1, state := .init },
              .again) := by
          rw [maybeSendKeepalive, if_neg hflag, if_neg hstate, if_pos hcount]
        refine .inr (.inr (.inr ⟨hfalse, hkeep, hcount, ?_⟩))
        rw [timerExpires, hsend]
        dsimp only
        rw [maybeSendKeepalive_again hsend]
      · have hsend : maybeSendKeepalive s =
            ({ s with numKeepaliveNoAnswer := s.numKeepaliveNoAnswer + 1 }, .sendPing) := by
          rw [maybeSendKeepalive, if_neg hflag, if_neg hstate, if_neg hcount]
        refine .inr (.inr (.inl ⟨hfalse, hkeep, Nat.le_of_not_lt hcount, ?_⟩))
        rw [timerExpires, hsend]

end

/-! ### Silence of the master -/

/-- The expiries since the last frame of a master that answers. -/
def silentExpiries (history : List Input) : Nat :=
  history.foldl (fun n input => match input with
    | .expiry => n + 1
    | .frame id => if IsAnswer id then 0 else n) 0

/-- At a timer expiry the slave goes from the keepalive state back to the start only if no pong,
ping or slave-alive frame has come since the expiry `mostaSlaveReinitCount` expiries before. -/
def DropsOnlySilent (history : List Input) : Prop :=
  Trace.EachStep next (fun past s input t =>
    input = .expiry → s.state = .keepalive → t.state = .init →
      mostaSlaveReinitCount ≤ silentExpiries past) .initial history

/-- The master has answered. -/
def Heard (history : List Input) : Prop := ∃ id, .frame id ∈ history ∧ IsAnswer id

/-- Once the master has answered, it answers in every second keepalive period. -/
def HeardOften (history : List Input) : Prop :=
  ∀ past future, history = past ++ future → Heard past → silentExpiries past ≤ 2

def NeverDropped (history : List Input) : Prop :=
  Trace.EachStep next (fun _ s input t =>
    input = .expiry → s.state = .keepalive → t.state ≠ .init) .initial history

/-- A live master is not dropped. -/
def LiveMasterKept (history : List Input) : Prop :=
  DropsOnlySilent history ∧ (HeardOften history → NeverDropped history)

/-- Every slave-alive frame comes while at most one keepalive is counted as not answered. -/
def AliveInTime (history : List Input) : Prop :=
  Trace.EachStep next (fun _ s input _ =>
    ∀ id, input = .frame id → IsAlive id → s.numKeepaliveNoAnswer.toNat ≤ 1) .initial history

section

variable {id : UInt32} {s t : StateImpl} {history past future : List Input}

@[simp] theorem silentExpiries_expiry :
    silentExpiries (history ++ [.expiry]) = silentExpiries history + 1 := by
  simp [silentExpiries]

theorem silentExpiries_answer (h : IsAnswer id) : silentExpiries (history ++ [.frame id]) = 0 := by
  simp [silentExpiries, h]

theorem silentExpiries_other (h : ¬ IsAnswer id) :
    silentExpiries (history ++ [.frame id]) = silentExpiries history := by
  simp [silentExpiries, h]

theorem Heard.append (h : Heard past) : Heard (past ++ future) := by
  obtain ⟨id, hid, hanswer⟩ := h
  exact ⟨id, List.mem_append_left _ hid, hanswer⟩

theorem heard_of_answer (h : IsAnswer id) : Heard (past ++ [.frame id]) :=
  ⟨id, by simp, h⟩

/-- A slave that keeps its master alive has heard of it. -/
theorem heard_of_keepalive (hrun : Trace.run next .initial history = some s)
    (hstate : s.state = .keepalive) : Heard history := by
  refine Trace.invariant_of_step (I := fun past s => s.state = .keepalive → Heard past)
    (fun h => by cases h) ?_ hrun hstate
  intro past input t u ih hnext hu
  cases hnext
  cases input with
  | expiry =>
    refine Heard.append (ih ?_)
    rcases timerExpires_cases t with ⟨_, h⟩ | ⟨_, _, h⟩ | ⟨_, hkeep, _⟩ | ⟨_, hkeep, _⟩
    · simpa [receive, h] using hu
    · simpa [receive, h] using hu
    · exact hkeep
    · exact hkeep
  | frame id =>
    rcases entry_cases id t with ⟨hid, _⟩ | ⟨halive, _⟩ | ⟨_, _, hstate, _⟩
    · exact heard_of_answer (hid.imp_right .inl)
    · exact heard_of_answer (.inr (.inr halive))
    · exact (ih (hstate hu)).append

theorem counter_succ (c : BitVec 4) : (c + 1).toNat = (c.toNat + 1) % 16 :=
  BitVec.toNat_add c 1

/-- While the slave-alive frames come in time, the counter never runs ahead of the expiries since
the last answer by more than the one that the flag will take. -/
theorem counted (halive : AliveInTime history)
    (hrun : Trace.run next .initial history = some s) :
    s.numKeepaliveNoAnswer.toNat ≤ silentExpiries history + s.hasIncomingKeepalive.toNat := by
  refine Trace.invariant (I := fun past s =>
    s.numKeepaliveNoAnswer.toNat ≤ silentExpiries past + s.hasIncomingKeepalive.toNat)
    (by decide) ?_ halive hrun
  intro past input t u _ ih hinput hnext
  cases hnext
  cases input with
  | expiry =>
    rw [silentExpiries_expiry]
    rcases timerExpires_cases t with
      ⟨hflag, h⟩ | ⟨hflag, _, h⟩ | ⟨hflag, _, _, h⟩ | ⟨hflag, _, _, h⟩
    all_goals simp only [receive, h, hflag, Bool.toNat_true, Bool.toNat_false] at ih ⊢
    · omega
    · omega
    · rw [counter_succ]
      omega
    · rw [counter_succ]
      omega
  | frame id =>
    rcases entry_cases id t with ⟨hid, h⟩ | ⟨hid, h⟩ | ⟨hid, hcount, _, hflag⟩
    · simp [receive, h]
    · have := hinput id rfl hid
      simp only [receive, h, Bool.toNat_true]
      omega
    · rw [silentExpiries_other hid]
      simp only [receive, hcount]
      have hflag' := Bool.toNat_le_toNat (fun h => hflag h)
      omega

/-- While the slave-alive frames come in time, the counter does not wrap. -/
theorem counter_bounded (halive : AliveInTime history)
    (hrun : Trace.run next .initial history = some s) :
    s.numKeepaliveNoAnswer.toNat ≤ mostaSlaveReinitCount + 1 ∧
      (s.state = .keepalive → s.numKeepaliveNoAnswer.toNat ≤ mostaSlaveReinitCount) := by
  refine Trace.invariant (I := fun _ s =>
    s.numKeepaliveNoAnswer.toNat ≤ mostaSlaveReinitCount + 1 ∧
      (s.state = .keepalive → s.numKeepaliveNoAnswer.toNat ≤ mostaSlaveReinitCount))
    (by decide) ?_ halive hrun
  intro past input t u _ ih hinput hnext
  cases hnext
  cases input with
  | expiry =>
    rcases timerExpires_cases t with ⟨_, h⟩ | ⟨_, _, h⟩ | ⟨_, _, hcount, h⟩ | ⟨_, hkeep, _, h⟩
    · simpa only [receive, h] using ih
    · simpa only [receive, h] using ih
    · simp only [receive, h]
      exact ⟨by omega, fun _ => hcount⟩
    · have hle := ih.2 hkeep
      simp only [receive, h]
      refine ⟨?_, fun hstate => by cases hstate⟩
      rw [counter_succ]
      omega
  | frame id =>
    rcases entry_cases id t with ⟨_, h⟩ | ⟨hid, h⟩ | ⟨_, hcount, hstate, _⟩
    · simp [receive, h]
    · have hle : t.numKeepaliveNoAnswer.toNat ≤ 1 := hinput id rfl hid
      have hreinit : mostaSlaveReinitCount = 8 := rfl
      simp only [receive, h]
      exact ⟨by omega, fun _ => by omega⟩
    · simp only [receive, hcount]
      exact ⟨ih.1, fun h => ih.2 (hstate h)⟩

/-- While the slave-alive frames come in time, only a silent master is dropped. -/
theorem dropsOnlySilent_of_aliveInTime (halive : AliveInTime history) :
    DropsOnlySilent history := by
  rintro past input future t u rfl hrun hnext rfl hkeep hinit
  have hcounted := counted halive.of_append hrun
  cases hnext
  rcases timerExpires_cases t with ⟨_, h⟩ | ⟨_, hne, _⟩ | ⟨_, _, _, h⟩ | ⟨hflag, _, hcount, _⟩
  · simp only [receive, h] at hinit
    cases hkeep.symm.trans hinit
  · exact absurd hkeep hne
  · simp only [receive, h] at hinit
    cases hkeep.symm.trans hinit
  · rw [counter_succ] at hcount
    rw [hflag, Bool.toNat_false] at hcounted
    omega

/-- A master that is dropped only when it is silent, and that is heard often, is never dropped. -/
theorem DropsOnlySilent.neverDropped (h : DropsOnlySilent history) (hoften : HeardOften history) :
    NeverDropped history := by
  intro past input future t u heq hrun hnext hexpiry hkeep hinit
  have hsilent := h past input future t u heq hrun hnext hexpiry hkeep hinit
  have hheard := hoften past (input :: future) heq (heard_of_keepalive hrun hkeep)
  have hreinit : mostaSlaveReinitCount = 8 := rfl
  omega

theorem liveMasterKept_of_aliveInTime (halive : AliveInTime history) : LiveMasterKept history :=
  ⟨dropsOnlySilent_of_aliveInTime halive, (dropsOnlySilent_of_aliveInTime halive).neverDropped⟩

/-- Expiries bring no slave-alive frame. -/
theorem AliveInTime.append_expiries (h : AliveInTime history) (n : Nat) :
    AliveInTime (history ++ List.replicate n .expiry) := by
  induction n with
  | zero => simpa using h
  | succ n ih =>
    rw [List.replicate_succ', ← List.append_assoc]
    refine Trace.EachStep.concat ih fun t u _ _ id hframe => ?_
    cases hframe

theorem silentExpiries_expiries (n : Nat) :
    silentExpiries (history ++ List.replicate n .expiry) = silentExpiries history + n := by
  induction n with
  | zero => simp
  | succ n ih =>
    rw [List.replicate_succ', ← List.append_assoc, silentExpiries_expiry, ih]
    omega

/-- Expiries are counted one by one up to `mostaSlaveReinitCount`. -/
theorem run_expiries {n : Nat} (hkeep : s.state = .keepalive)
    (hflag : s.hasIncomingKeepalive = false)
    (hcount : n ≤ mostaSlaveReinitCount - s.numKeepaliveNoAnswer.toNat) :
    ∃ t, Trace.run next s (List.replicate n .expiry) = some t ∧ t.state = .keepalive ∧
      t.hasIncomingKeepalive = false ∧
      t.numKeepaliveNoAnswer.toNat = s.numKeepaliveNoAnswer.toNat + n := by
  induction n with
  | zero => exact ⟨s, rfl, hkeep, hflag, rfl⟩
  | succ n ih =>
    obtain ⟨t, hrun, htkeep, htflag, htcount⟩ := ih (by omega)
    have hreinit : mostaSlaveReinitCount = 8 := rfl
    have hsucc : (t.numKeepaliveNoAnswer + 1).toNat = s.numKeepaliveNoAnswer.toNat + (n + 1) := by
      rw [counter_succ]
      omega
    refine ⟨(timerExpires t).1, ?_, ?_⟩
    · rw [List.replicate_succ', Trace.run_concat, hrun]
      rfl
    · rcases timerExpires_cases t with ⟨h, _⟩ | ⟨_, h, _⟩ | ⟨_, _, _, h⟩ | ⟨_, _, h, _⟩
      · cases h.symm.trans htflag
      · exact absurd htkeep h
      · rw [h]
        exact ⟨htkeep, htflag, hsucc⟩
      · omega

/-- One more expiry after that, and the master is dropped. -/
theorem timerExpires_drops (hkeep : s.state = .keepalive) (hflag : s.hasIncomingKeepalive = false)
    (hcount : mostaSlaveReinitCount < (s.numKeepaliveNoAnswer + 1).toNat) :
    (timerExpires s).1.state = .init := by
  rcases timerExpires_cases s with ⟨h, _⟩ | ⟨_, h, _⟩ | ⟨_, _, h, _⟩ | ⟨_, _, _, h⟩
  · cases h.symm.trans hflag
  · exact absurd hkeep h
  · omega
  · rw [h]

/-- A slave-alive frame that comes too late does not take back the keepalives that are counted: the
master is dropped before it has been silent for long. -/
theorem dropped_early (halive : AliveInTime past) (hrun : Trace.run next .initial past = some s)
    (hid : IsAlive id) (hlate : 1 < s.numKeepaliveNoAnswer.toNat) :
    ∃ n, ¬ DropsOnlySilent (past ++ [.frame id] ++ List.replicate n .expiry) := by
  obtain ⟨hbound, _⟩ := counter_bounded halive hrun
  have hreinit : mostaSlaveReinitCount = 8 := rfl
  -- the first expiry takes the flag, the next ones count on from where the counter was
  let t : StateImpl := { s with state := .keepalive, hasIncomingKeepalive := false }
  let n := mostaSlaveReinitCount - s.numKeepaliveNoAnswer.toNat
  obtain ⟨u, hu, hukeep, huflag, hucount⟩ := run_expiries (s := t) (n := n) rfl rfl (Nat.le_refl n)
  have hbefore : Trace.run next .initial (past ++ [.frame id] ++ List.replicate (n + 1) .expiry) =
      some u := by
    have hframe : Trace.run next .initial (past ++ [.frame id]) =
        some { s with hasIncomingKeepalive := true, state := .keepalive } := by
      rw [Trace.run_concat, hrun]
      exact congrArg some (entry_alive hid)
    rw [Trace.run_append, hframe, List.replicate_succ]
    exact hu
  have hsilent :
      silentExpiries (past ++ [.frame id] ++ List.replicate (n + 1) .expiry) = n + 1 := by
    rw [silentExpiries_expiries, silentExpiries_answer (.inr (.inr hid)), Nat.zero_add]
  have hdrop : (timerExpires u).1.state = .init := by
    refine timerExpires_drops hukeep huflag ?_
    have htcount : t.numKeepaliveNoAnswer = s.numKeepaliveNoAnswer := rfl
    rw [counter_succ, hucount, htcount]
    omega
  refine ⟨n + 1 + 1, fun h => ?_⟩
  rw [List.replicate_succ', ← List.append_assoc] at h
  have hle := h.last hbefore rfl rfl hukeep hdrop
  rw [hsilent] at hle
  omega

/-- While the slave-alive frames come in time, a live master is not dropped; and they come in time
exactly if the master, wherever it falls silent, is dropped only after its time. -/
theorem live_master_kept (history : List Input) :
    (AliveInTime history → LiveMasterKept history) ∧
    (AliveInTime history ↔ ∀ past future, history = past ++ future →
      ∀ n, LiveMasterKept (past ++ List.replicate n .expiry)) := by
  refine ⟨liveMasterKept_of_aliveInTime, ?_, ?_⟩
  · rintro halive past future rfl n
    have hpast : AliveInTime past := Trace.EachStep.of_append halive
    exact liveMasterKept_of_aliveInTime (hpast.append_expiries n)
  · intro hkept
    by_contra hlate
    obtain ⟨past, input, future, s, _, rfl, halive, hrun, _, hbreak⟩ :=
      Trace.EachStep.exists_first hlate
    simp only [not_forall, not_le] at hbreak
    obtain ⟨id, rfl, hid, hcount⟩ := hbreak
    obtain ⟨n, hdropped⟩ := dropped_early halive hrun hid hcount
    exact hdropped (hkept (past ++ [.frame id]) future (by simp) n).1

end

/-! ### A master that is dropped in its time, and one that is not -/

/-- `AliveInTime`, evaluated along the run. -/
theorem aliveInTime_of_check {history : List Input}
    (h : Trace.check next (fun s input => match input with
      | .expiry => true
      | .frame id => !decide (IsAlive id) || decide (s.numKeepaliveNoAnswer.toNat ≤ 1)) .initial
      history = true) : AliveInTime history := by
  intro past input future s t heq hrun hnext id hid halive
  have hcheck := Trace.eachStep_of_check h past input future s t heq hrun hnext
  subst hid
  simpa [halive] using hcheck

/-- A pong and a slave-alive frame, and nothing for nine keepalive periods. -/
def aliveThenSilent : List Input :=
  [.frame 0x08000900, .expiry, .frame 0x1c0380fe] ++ List.replicate 9 .expiry

/-- The slave starts again at the ninth expiry, not before. -/
theorem aliveThenSilent_kept : LiveMasterKept aliveThenSilent :=
  (live_master_kept aliveThenSilent).1 (aliveInTime_of_check (by decide))

example : (Trace.run next .initial aliveThenSilent).map StateImpl.state = some .init := by decide

/-- A slave-alive frame in every second keepalive period, from the first on. -/
def aliveEverySecondPeriod : List Input :=
  (List.replicate 9 [.frame 0x1c0380fe, .expiry, .expiry]).flatten

/-- The expiry that takes the flag of a slave-alive frame leaves the counter as it is, so that the
other expiry of every two periods brings the counter nearer to the end. -/
theorem aliveEverySecondPeriod_dropped :
    ¬ DropsOnlySilent aliveEverySecondPeriod ∧
    ¬ (HeardOften aliveEverySecondPeriod → NeverDropped aliveEverySecondPeriod) := by
  have hoften : HeardOften aliveEverySecondPeriod := by
    intro past future heq _
    have hall : ∀ past ∈ aliveEverySecondPeriod.inits, silentExpiries past ≤ 2 := by decide
    exact hall past (List.mem_inits past _ |>.mpr ⟨future, heq.symm⟩)
  have hdropped : ¬ NeverDropped aliveEverySecondPeriod := by
    intro hnever
    have hrun : (Trace.run next .initial aliveEverySecondPeriod.dropLast).map
        (fun s => (s.state, (timerExpires s).1.state)) = some (.keepalive, .init) := by
      decide
    obtain ⟨s, hs, hstates⟩ := Option.map_eq_some_iff.mp hrun
    obtain ⟨hkeep, hinit⟩ := Prod.mk.inj hstates
    exact hnever _ .expiry [] s _ (by decide) hs rfl rfl hkeep hinit
  exact ⟨fun h => hdropped (h.neverDropped hoften), fun h => hdropped (h hoften)⟩

end OpenmrnCue.MobileStation
