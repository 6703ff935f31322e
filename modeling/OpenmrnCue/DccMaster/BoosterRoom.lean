import OpenmrnCue.DccMaster.Steps

/-! The booster as it tells of itself.  In every run the master sends packets for the track only
while the booster has power, is enabled and has room for one more. -/

namespace OpenmrnCue.DccMaster

open Conformance

/-- A booster: for how many packets there is room, and its two switches. -/
structure Booster where
  room : Nat
  alive : Bool
  enabled : Bool
deriving DecidableEq, Repr

namespace Booster

/-- What the booster is after a packet that it has sent or got. -/
def after (b : Booster) : Event → Booster
  | .received p =>
    if p.sid = masterSid ∧ 0 < p.len then
      if p.d 0 = cmdKeepalive then { b with room := (p.d 1).toNat, alive := p.d 2 ≠ 0 }
      else if p.d 0 = cmdDisable then { b with enabled := false }
      else if p.d 0 = cmdEnable then { b with enabled := true }
      else b
    else b
  | .sent p => if p.isTrack then { b with room := b.room - 1 } else b
  | .turn _ _ => b

/-- The booster can take what it gets. -/
def Step (b : Booster) (e : Event) (b' : Booster) : Prop :=
  (∀ p, e = .sent p → p.isTrack = true → b.alive = true ∧ b.enabled = true ∧ 0 < b.room) ∧
    b' = b.after e

end Booster

/-- The booster as the master knows it. -/
def Master.booster (m : Master) : Booster := ⟨m.freePacketCount.toNat, m.alive, m.enabled⟩

/-- The booster can take what a step sends, and the master knows what it is then. -/
def Keeps (m : Master) (r : Master × List Event) : Prop :=
  Conforms Booster.Step (fun m b => b = m.booster) m r

/-- Events that are no business of the booster. -/
theorem keeps_of_quiet {m m' : Master} {events : List Event} (hsame : m'.booster = m.booster)
    (hquiet : ∀ e ∈ events, e.isQuiet = true ∨ ∃ id speed, e = .turn id speed) :
    Keeps m (m', events) := by
  refine conforms_of_same (fun b hb => hb.trans hsame.symm) fun b _ e he => ?_
  rcases hquiet e he with h | ⟨id, speed, rfl⟩
  · cases e with
    | received | turn => cases h
    | sent p =>
      have htrack : p.isTrack = false := by
        simp only [Event.isQuiet, Bool.and_eq_true, Bool.not_eq_true'] at h
        exact h.1
      refine ⟨fun p' hp' htrack' => ?_, ?_⟩
      · cases hp'
        rw [htrack] at htrack'
        cases htrack'
      · rw [Booster.after, htrack]
        rfl
  · refine ⟨fun p hp => ?_, rfl⟩
    cases hp

theorem keeps_refl (m : Master) : Keeps m (m, []) :=
  keeps_of_quiet rfl fun e he => by cases he

theorem Master.Calm.keeps {m : Master} {r : Master × List Event} (h : m.Calm r) : Keeps m r := by
  refine keeps_of_quiet ?_ fun e he => .inl (h.quiet e he)
  rw [h.rest]
  rfl

/-- One packet for the track. -/
theorem keeps_of_packet {m m' : Master} {p : CanPacket} (htrack : p.isTrack = true)
    (halive : m.alive = true) (henabled : m.enabled = true) (hroom : m.freePacketCount ≠ 0)
    (hbooster : m'.alive = m.alive ∧ m'.enabled = m.enabled)
    (hfree : m'.freePacketCount = m.freePacketCount - 1) : Keeps m (m', [.sent p]) := by
  have hpos : 0 < m.freePacketCount.toNat := by
    rw [Nat.pos_iff_ne_zero]
    exact fun h => hroom (BitVec.eq_of_toNat_eq h)
  have hless : (m.freePacketCount - 1).toNat = m.freePacketCount.toNat - 1 := by
    rw [BitVec.toNat_sub_of_le (by rw [BitVec.le_def]; exact hpos)]
    rfl
  refine conforms_of_event fun b hb => ⟨_, ⟨fun _ _ _ => ?_, rfl⟩, ?_⟩
  · rw [hb]
    exact ⟨halive, henabled, hpos⟩
  · rw [Booster.after, if_pos htrack, hb]
    rw [Master.booster, Master.booster, hbooster.1, hbooster.2, hfree, hless]

theorem Spends.keeps {m m' : Master} {sent : List Event} (halive : m.alive = true)
    (henabled : m.enabled = true) (hroom : m.freePacketCount ≠ 0)
    (hbooster : m'.alive = m.alive ∧ m'.enabled = m.enabled) {free : Byte}
    (h : Spends m.freePacketCount free sent) (hfree : m'.freePacketCount = free) :
    Keeps m (m', sent) := by
  cases h with
  | nothing =>
    have hsame : m'.booster = m.booster := by
      rw [Master.booster, Master.booster, hbooster.1, hbooster.2, hfree]
    exact keeps_of_quiet hsame fun _ he => by cases he
  | packet hplain => exact keeps_of_packet hplain.isTrack halive henabled hroom hbooster hfree

theorem processLoop_keeps (m : Master) : Keeps m m.processLoop := by
  rcases m.processLoop_cases with h | ⟨⟨halive, henabled, -, hroom⟩, hrest, turns, sent, hevents,
    hturns, hspends⟩
  · rw [h]
    exact keeps_refl m
  · generalize m.processLoop = r at hrest hevents hspends
    obtain ⟨m', events⟩ := r
    dsimp only at hrest hevents hspends
    have hbooster : m'.alive = m.alive ∧ m'.enabled = m.enabled := by
      rw [hrest]
      exact ⟨rfl, rfl⟩
    have hfirst : Keeps m (m, turns) := keeps_of_quiet rfl fun e he => .inr (hturns e he)
    have hsecond : Keeps m (m', sent) := hspends.keeps halive henabled hroom hbooster rfl
    rw [hevents]
    exact hfirst.append hsecond

theorem Master.SameTrack.booster {m m' : Master} (h : m.SameTrack m')
    (hfree : m'.freePacketCount = m.freePacketCount) : m'.booster = m.booster := by
  rw [Master.booster, Master.booster, h.alive, h.enabled, hfree]

theorem Master.Responds.keeps {m : Master} {r : Master × List Event} (h : m.Responds r) :
    Keeps m r := by
  obtain ⟨code, value, hsame, hfree, -, -⟩ := h
  refine conforms_of_event fun b hb => ⟨b, ⟨fun p hp htrack => ?_, rfl⟩, ?_⟩
  · cases hp
    rw [isTrack_response] at htrack
    cases htrack
  · exact hb.trans (hsame.booster hfree).symm

theorem handleServiceMode_keeps {m : Master} (halive : m.alive = true)
    (henabled : m.enabled = true) : Keeps m m.handleServiceMode := by
  have hanswers := m.serviceAnswer_answers
  unfold Master.handleServiceMode
  generalize m.serviceAnswer = a at hanswers ⊢
  cases hanswers with
  | response hresponds => exact hresponds.keeps
  | @goesOn m' hsame hfree hmode hcv =>
    have hfirst : Keeps m (m', []) := keeps_of_quiet (hsame.booster hfree) fun _ he => by cases he
    dsimp only
    split
    · exact hfirst
    · next hroom =>
      have hserves := m'.serviceSend_serves
      generalize m'.serviceSend = r at hserves ⊢
      refine hfirst.append (q := r) ?_
      cases hserves with
      | response hresponds => exact hresponds.keeps
      | waits => exact keeps_refl m'
      | packet hsame' hfree' hmode' htrack =>
        exact keeps_of_packet htrack (hsame.alive.trans halive) (hsame.enabled.trans henabled)
          hroom ⟨hsame'.alive, hsame'.enabled⟩ hfree'

/-! ### Packets from the bus -/

/-- What the master learns from a packet is what the packet tells. -/
theorem handlePacketToMaster_keeps (m : Master) {p : CanPacket}
    (hp : p.sid = masterSid ∧ 0 < p.len) :
    Keeps m ((m.handlePacketToMaster p).1, .received p :: (m.handlePacketToMaster p).2) := by
  have hkeeps : ∀ {m' : Master} {events : List Event}, m.booster.after (.received p) = m'.booster →
      (∀ e ∈ events, e.isQuiet = true) → Keeps m (m', .received p :: events) := by
    intro m' events hafter hquiet
    have hfirst : Keeps m (m', [.received p]) := by
      refine conforms_of_event fun b hb => ⟨_, ⟨fun _ h => ?_, rfl⟩, ?_⟩
      · cases h
      · rw [hb, hafter]
    have hsecond : Keeps m' (m', events) := keeps_of_quiet rfl fun e he => .inl (hquiet e he)
    exact hfirst.append hsecond
  have hafter : m.booster.after (.received p) =
      (m.handlePacketToMaster p).1.booster := by
    rw [Booster.after, if_pos hp]
    unfold Master.handlePacketToMaster
    split
    · rfl
    · rw [apply_ite Prod.fst]
      split
      · next hack =>
        rw [hack, if_neg (by decide), if_neg (by decide)]
        rfl
      · rw [apply_ite Prod.fst]
        split
        · next hnoack =>
          rw [hnoack, if_neg (by decide), if_neg (by decide)]
          rfl
        · split
          · rfl
          · split <;> rfl
  have hquiet := (m.hear_same p).2
  rw [Master.hear, if_pos hp] at hquiet
  exact hkeeps hafter hquiet

theorem handleServiceRequest_booster (m : Master) (p : CanPacket) :
    (m.handleServiceRequest p).booster = m.booster := by
  refine (m.handleServiceRequest_same p).booster ?_
  unfold Master.handleServiceRequest
  split
  · dsimp only
    split
    · rfl
    · split <;> rfl
  · rfl

theorem parts_keep :
    Master.Parts Booster.Step (fun m b => b = m.booster) fun _ m b => b = m.booster where
  hear m p := by
    change Keeps m ((m.hear p).1, .received p :: (m.hear p).2)
    unfold Master.hear
    split
    · next hp => exact handlePacketToMaster_keeps m hp
    · next hp =>
      refine conforms_of_event fun b hb => ⟨b, ⟨fun _ h => ?_, ?_⟩, hb⟩
      · cases h
      · rw [Booster.after, if_neg hp]
  calmHeard _ _ _ h := h.keeps
  request p m _ h := h.trans (handleServiceRequest_booster m p).symm
  calm _ _ h := h.keeps
  service _ halive henabled _ := handleServiceMode_keeps halive henabled
  loop := processLoop_keeps

/-- In every run each packet for the track is sent while the booster, as it has told of itself, has
power, is enabled and has room for the packet.  The master knows how much room is left. -/
theorem track_packets_accepted (db : List ConstLoco) (inputs : List Input) {m : Master}
    {log : List Event} (hrun : Trace.run (step db) (Master.init db, []) inputs = some (m, log)) :
    Steps Booster.Step ⟨0, false, true⟩ log m.booster := by
  have hstart : (⟨0, false, true⟩ : Booster) = (Master.init db).booster := rfl
  obtain ⟨b, hsteps, rfl⟩ := parts_keep.steps hstart hrun
  exact hsteps

/-- The booster has room for one packet only, and then for no more. -/
theorem keepalives_accepted :
    ∃ m log, Trace.run (step sampleDb) (Master.init sampleDb, [])
        [keepalive 0, keepalive 1, .setLocoFn 2 0 1, keepalive 2] = some (m, log) ∧
      (log.filter fun e => match e with | .sent p => p.isTrack | _ => false).length = 3 ∧
      Steps Booster.Step ⟨0, false, true⟩ log m.booster := by
  have hcount : (Trace.run (step sampleDb) (Master.init sampleDb, [])
      [keepalive 0, keepalive 1, .setLocoFn 2 0 1, keepalive 2]).map
        (fun s => (s.2.filter fun e => match e with | .sent p => p.isTrack | _ => false).length) =
      some 3 := by
    decide
  obtain ⟨⟨m, log⟩, hrun, hlength⟩ := Option.map_eq_some_iff.mp hcount
  exact ⟨m, log, hrun, hlength, track_packets_accepted sampleDb _ hrun⟩

end OpenmrnCue.DccMaster
