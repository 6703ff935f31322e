import OpenmrnCue.Library.Trace

/-! `SignalLoop` of `SignalLoop.hxx`: the background refresh of the signals on a bus, which the bus
master polls, and the activity that sends the boot command from time to time. -/

namespace OpenmrnCue.Custom

/-- `prep_update_packet`: the payload of an update. -/
def prepUpdatePacket (address aspect : UInt8) : List UInt8 := [address, 3, 3, aspect]

/-- `SignalLoop`, as far as the refresh by the bus master uses it.  The older refresh, a flow of its
own, is never started. -/
structure SignalLoop where
  numSignals : UInt8
  backingStore : Nat → UInt8
  nextSignal : Nat
  paused : Bool

/-- What can happen to the loop: the bus master polls it, an event changes a byte of the backing
store, or the loop is turned off or on. -/
inductive LoopInput where
  | poll
  | changed (offset : Nat) (value : UInt8)
  | disableLoop
  | enableLoop

namespace SignalLoop

/-- The loop after construction. -/
def start (numSignals : UInt8) : SignalLoop where
  numSignals := numSignals
  backingStore := fun offset => if offset = 0 then 255 else 0
  nextSignal := 0
  paused := false

/-- The two bytes of a slot. -/
def address (s : SignalLoop) (slot : Nat) : UInt8 := s.backingStore (slot <<< 1)

def aspect (s : SignalLoop) (slot : Nat) : UInt8 := s.backingStore ((slot <<< 1) + 1)

/-- The packet with the bytes of a slot. -/
def slotPacket (s : SignalLoop) (slot : Nat) : List UInt8 :=
  prepUpdatePacket (s.address slot) (s.aspect slot)

/-- The loop that skips the signals without an address.  The cursor stays below the number of
signals, so that its eight bits do not overflow. -/
def skipEmpty (s : SignalLoop) (next : Nat) : Nat :=
  if next < s.numSignals.toNat ∧ 0 < next ∧ s.address next = 0 then s.skipEmpty (next + 1) else next
termination_by s.numSignals.toNat - next

/-- `fill_packet` for the bus master: the loop and the payload. -/
def fillPacket (s : SignalLoop) : SignalLoop × List UInt8 :=
  let next := s.skipEmpty s.nextSignal
  let next := if s.numSignals.toNat ≤ next then 0 else next
  ({ s with nextSignal := next }, s.slotPacket next)

/-- One step of the loop or of what is around it. -/
def step (s : SignalLoop) : LoopInput → SignalLoop
  | .poll => s.fillPacket.1
  | .changed offset value =>
    { s with backingStore := fun other => if other = offset then value else s.backingStore other }
  | .disableLoop => { s with paused := true }
  | .enableLoop => { s with paused := false }

/-- The slot and the payload of the packets that a number of polls in a row makes. -/
def polls : Nat → SignalLoop → List (Nat × List UInt8)
  | 0, _ => []
  | n + 1, s => (s.fillPacket.1.nextSignal, s.fillPacket.2) :: polls n s.fillPacket.1

/-- As many polls as there are signals send every slot that has an address, and no slot but the first
one without an address. -/
def Refreshes (s : SignalLoop) : Prop :=
  (∀ slot < s.numSignals.toNat, s.address slot ≠ 0 →
    (slot, s.slotPacket slot) ∈ polls s.numSignals.toNat s) ∧
  ∀ packet ∈ polls s.numSignals.toNat s, 0 < packet.1 → s.address packet.1 ≠ 0

/-- The cursor does not leave the first slot. -/
theorem fillPacket_zero {s : SignalLoop} (h : s.nextSignal = 0) :
    s.fillPacket = (s, s.slotPacket 0) := by
  have hskip : s.skipEmpty 0 = 0 := by
    rw [skipEmpty]
    simp
  obtain ⟨numSignals, backingStore, nextSignal, paused⟩ := s
  cases h
  simp [fillPacket, hskip]

theorem nextSignal_step {s : SignalLoop} (h : s.nextSignal = 0) (input : LoopInput) :
    (s.step input).nextSignal = 0 := by
  cases input with
  | poll =>
    rw [step, fillPacket_zero h]
    exact h
  | changed | disableLoop | enableLoop => exact h

theorem nextSignal_run (numSignals : UInt8) (history : List LoopInput) :
    (history.foldl step (start numSignals)).nextSignal = 0 := by
  induction history using List.reverseRecOn with
  | nil => rfl
  | append_singleton past input ih =>
    rw [List.foldl_append]
    exact nextSignal_step ih input

theorem polls_zero {s : SignalLoop} (h : s.nextSignal = 0) (n : Nat) :
    polls n s = List.replicate n (0, s.slotPacket 0) := by
  induction n with
  | zero => rfl
  | succ n ih => rw [polls, fillPacket_zero h, ih, h, List.replicate_succ]

/-- Whatever happened before, the polls refresh every signal exactly if only the first slot has an
address. -/
theorem refreshes_iff (numSignals : UInt8) (history : List LoopInput) :
    (history.foldl step (start numSignals)).Refreshes ↔
      ∀ slot < (history.foldl step (start numSignals)).numSignals.toNat, 0 < slot →
        (history.foldl step (start numSignals)).address slot = 0 := by
  have hpolls := polls_zero (nextSignal_run numSignals history)
  generalize history.foldl step (start numSignals) = s at hpolls ⊢
  unfold Refreshes
  rw [hpolls]
  constructor
  · rintro ⟨hsent, -⟩ slot hslot hpos
    by_contra haddress
    have hmem := (List.mem_replicate.mp (hsent slot hslot haddress)).2
    exact absurd (congrArg Prod.fst hmem) (Nat.ne_of_gt hpos)
  · intro hempty
    refine ⟨fun slot hslot haddress => ?_, fun packet hpacket hpos => ?_⟩
    · rcases Nat.eq_zero_or_pos slot with rfl | hpos
      · exact List.mem_replicate.mpr ⟨Nat.ne_of_gt hslot, rfl⟩
      · exact absurd (hempty slot hslot hpos) haddress
    · rw [(List.mem_replicate.mp hpacket).2] at hpos
      exact absurd hpos (Nat.lt_irrefl 0)

/-- A second signal is never refreshed. -/
theorem secondSignal_starved : ¬ ∀ (numSignals : UInt8) (history : List LoopInput),
    (history.foldl step (start numSignals)).Refreshes := by
  intro h
  have hempty := (polls_zero (nextSignal_run 2 [.changed 2 5]) 2)
  have hsent := (h 2 [.changed 2 5]).1 1 (by decide) (by decide)
  change _ ∈ polls 2 _ at hsent
  rw [hempty] at hsent
  exact absurd (congrArg Prod.fst (List.mem_replicate.mp hsent).2) (by decide)

end SignalLoop

/-- `BootCommandSender`, with the loop that it belongs to.  `queued` counts how many times the activity
is in the queue of the bus master. -/
structure BootCommandSender where
  isLoopRunning : Bool
  isRunning : Bool
  isScheduled : Bool
  queued : Nat

/-- What can happen: the timer of the sender expires, the bus master takes the sender off its queue
and polls it, and the loop is turned off or on. -/
inductive BootInput where
  | timeout
  | poll
  | disableLoop
  | enableLoop
deriving DecidableEq

namespace BootCommandSender

/-- `ensure_started`. -/
def ensureStarted (s : BootCommandSender) : BootCommandSender :=
  if !s.isRunning then { s with isRunning := true } else s

/-- `stop_timer`. -/
def stopTimer (s : BootCommandSender) : BootCommandSender :=
  if s.isRunning then { s with isRunning := false, isScheduled := false } else s

/-- The sender after the construction of the loop. -/
def start : BootCommandSender := ensureStarted ⟨true, false, false, 0⟩

/-- The timer calls `schedule_activity`. -/
def schedules (s : BootCommandSender) : BootInput → Bool
  | .timeout => s.isLoopRunning && !s.isScheduled
  | _ => false

/-- `timeout`. -/
def timeout (s : BootCommandSender) : BootCommandSender :=
  if s.isLoopRunning then
    if !s.isScheduled then { s with isScheduled := true, queued := s.queued + 1 } else s
  else { s with isRunning := false }

/-- `fill_packet`: the sender and the payload. -/
def fillPacket (s : BootCommandSender) : BootCommandSender × List UInt8 :=
  ({ s with isScheduled := false }, [0, 2, 0x12])

/-- One step of the sender or of what is around it. -/
def step (s : BootCommandSender) : BootInput → Option BootCommandSender
  | .timeout => some s.timeout
  | .poll => if s.queued = 0 then none else some { s with queued := s.queued - 1 }.fillPacket.1
  | .disableLoop => some { s with isLoopRunning := false }.stopTimer
  | .enableLoop => some { s with isLoopRunning := true }.ensureStarted

/-- The loop is turned off while the sender waits in the queue. -/
def forgets (s : BootCommandSender) (input : BootInput) : Bool :=
  input = .disableLoop && s.isRunning && s.isScheduled

/-- The activity is scheduled only when it is not in the queue. -/
def SchedulesOnce (history : List BootInput) : Prop :=
  Trace.EachStep step (fun _ s input _ => s.schedules input = true → s.queued = 0) start history ∧
  Trace.Always step (fun _ s => s.isScheduled = false → s.queued = 0) start history

variable {s s' : BootCommandSender} {input : BootInput}

theorem queued_of_scheduled (h : s.isScheduled = true → s.queued ≠ 0)
    (hstep : s.step input = some s') : s'.isScheduled = true → s'.queued ≠ 0 := by
  cases input with
  | timeout =>
    cases hstep
    unfold timeout
    split_ifs
    · exact fun _ => Nat.succ_ne_zero _
    · exact h
    · exact h
  | poll =>
    simp only [step, Option.ite_none_left_eq_some, Option.some.injEq] at hstep
    obtain ⟨-, rfl⟩ := hstep
    exact nofun
  | disableLoop =>
    cases hstep
    unfold stopTimer
    split_ifs
    · exact nofun
    · exact h
  | enableLoop =>
    cases hstep
    unfold ensureStarted
    split_ifs <;> exact h

/-- The sender is in the queue as often as its flag says. -/
theorem queued_step (h : s.queued = s.isScheduled.toNat)
    (hforgets : s.forgets input = false) (hstep : s.step input = some s') :
    s'.queued = s'.isScheduled.toNat := by
  cases input with
  | timeout =>
    cases hstep
    unfold timeout
    split_ifs with _ hscheduled
    · simp only [Bool.not_eq_true'] at hscheduled
      simp [h, hscheduled]
    · exact h
    · exact h
  | poll =>
    simp only [step, Option.ite_none_left_eq_some, Option.some.injEq] at hstep
    obtain ⟨hqueued, rfl⟩ := hstep
    cases hscheduled : s.isScheduled <;> simp_all [fillPacket]
  | disableLoop =>
    cases hstep
    unfold stopTimer
    split_ifs with hrunning
    · have hidle : s.isScheduled = false := by
        simpa [forgets, show s.isRunning = true from hrunning] using hforgets
      simpa [hidle] using h
    · exact h
  | enableLoop =>
    cases hstep
    unfold ensureStarted
    split_ifs <;> exact h

/-- The activity is in the queue at most once, and its flag says so, exactly in the runs in which the
loop is never turned off while the sender waits in the queue. -/
theorem schedulesOnce_iff (history : List BootInput) :
    SchedulesOnce history ↔
      Trace.EachStep step (fun _ s input _ => s.forgets input = false) start history := by
  constructor
  · rintro ⟨-, hflag⟩ past input future s s' rfl hrun hstep
    by_contra hforgets
    simp only [forgets, Bool.not_eq_false, Bool.and_eq_true, decide_eq_true_eq] at hforgets
    obtain ⟨⟨rfl, hrunning⟩, hscheduled⟩ := hforgets
    have hqueued : s.isScheduled = true → s.queued ≠ 0 :=
      Trace.invariant_of_step
        (I := fun _ (s : BootCommandSender) => s.isScheduled = true → s.queued ≠ 0) (by decide)
        (fun _ _ _ _ h hstep => queued_of_scheduled h hstep) hrun
    have hafter := hflag (past ++ [.disableLoop]) future s' (by simp)
      (Trace.run_concat_eq_some.mpr ⟨s, hrun, hstep⟩)
    cases hstep
    simp only [stopTimer, hrunning, if_true] at hafter
    exact hqueued hscheduled (hafter trivial)
  · intro hforgets
    have hqueued : Trace.Always step
        (fun _ s => s.queued = s.isScheduled.toNat) start history :=
      Trace.always (by decide) (fun _ _ _ _ _ h hno hstep => queued_step h hno hstep) hforgets
    constructor
    · rintro past input future s s' rfl hrun hstep hschedules
      have h := hqueued past (input :: future) s rfl hrun
      cases input with
      | timeout =>
        simp only [schedules, Bool.and_eq_true, Bool.not_eq_true'] at hschedules
        simpa [hschedules.2] using h
      | poll | disableLoop | enableLoop => cases hschedules
    · intro past future s heq hrun hidle
      simpa [hidle] using hqueued past future s heq hrun

/-- The boot command waits in the queue while the loop is turned off and on: the timer schedules it
once more. -/
theorem pause_schedulesTwice : ¬ ∀ history, SchedulesOnce history := by
  intro h
  have htwice := (h [.timeout, .disableLoop, .enableLoop, .timeout]).1
    [.timeout, .disableLoop, .enableLoop] .timeout [] _ _ rfl rfl rfl
  exact absurd (htwice rfl) (by decide)

end BootCommandSender

end OpenmrnCue.Custom
