import OpenmrnCue.CommandStation.UpdateProcessor

/-! Urgent updates of the packet loop are neither lost nor served twice.  Each `notify_update` puts
a buffer in the queue; the buffer is there until the packet that serves it is sent, unless its
source is removed. -/

namespace OpenmrnCue.CommandStation

variable {Source : Type} [DecidableEq Source]

/-- The buffer of the urgent update that a packet serves. -/
def TrackPacket.serves : TrackPacket Source → Option Nat
  | .idle => none
  | .filled call => call.serves

/-- The processor with the packets it has sent to the track. -/
structure PacketLoop (Source : Type) where
  processor : UpdateProcessor Source
  track : List (TrackPacket Source)

namespace PacketLoop

def start : PacketLoop Source := ⟨.start, []⟩

def step (minPriority : Nat) (delay : Int) (loop : PacketLoop Source)
    (input : ProcessorInput Source) : Option (PacketLoop Source) :=
  let (packets, processor) := loop.processor.handle minPriority delay input
  some ⟨processor, loop.track ++ packets⟩

/-- How often the buffer is in the queue. -/
def waiting (loop : PacketLoop Source) (buffer : Nat) : Nat :=
  loop.processor.priorityUpdates.countP (·.buffer = buffer)

/-- How many packets were sent for the buffer. -/
def served (loop : PacketLoop Source) (buffer : Nat) : Nat :=
  loop.track.countP (·.serves = some buffer)

/-- The buffers in the queue and the buffers served were allocated before. -/
structure Allocated (loop : PacketLoop Source) : Prop where
  queue : ∀ b ∈ loop.processor.priorityUpdates, b.buffer < loop.processor.allocated
  track : ∀ packet ∈ loop.track, ∀ buffer ∈ packet.serves, buffer < loop.processor.allocated

/-- The buffer belongs to an update of `source` with `code`, and it is in the queue or served at
most once. -/
structure Accounted (source : Source) (code : Nat) (buffer : Nat) (loop : PacketLoop Source) :
    Prop where
  allocated : buffer < loop.processor.allocated
  queue : ∀ b ∈ loop.processor.priorityUpdates, b.buffer = buffer →
    b.source = source ∧ b.code = code
  track : ∀ call, .filled call ∈ loop.track → call.serves = some buffer →
    call.source = source ∧ call.code = code
  once : loop.waiting buffer + loop.served buffer ≤ 1

/-- What a call does to the buffers. -/
inductive BufferStep (loop loop' : PacketLoop Source) : Prop where
  | none (queue : loop'.processor.priorityUpdates = loop.processor.priorityUpdates)
      (allocated : loop'.processor.allocated = loop.processor.allocated)
      (track : loop'.track = loop.track)
  | notified (source : Source) (code : Nat)
      (queue : loop'.processor.priorityUpdates =
        loop.processor.priorityUpdates ++ [⟨loop.processor.allocated, source, code⟩])
      (allocated : loop'.processor.allocated = loop.processor.allocated + 1)
      (track : loop'.track = loop.track)
  | polled (call : Option (PacketCall Source))
      (queue : UpdateProcessor.QueueStep loop.processor loop'.processor call)
      (allocated : loop'.processor.allocated = loop.processor.allocated)
      (track : loop'.track = loop.track ++ [(call.map TrackPacket.filled).getD .idle])

section
variable {minPriority : Nat} {delay : Int} {loop loop' : PacketLoop Source}
  {input : ProcessorInput Source}

theorem bufferStep (h : loop.processor.Registered)
    (hstep : loop.step minPriority delay input = some loop') : BufferStep loop loop' := by
  cases input with
  | add source priority =>
    cases hstep
    have hadd := UpdateProcessor.addRefreshSource_eq h minPriority source priority
    refine .none ?_ ?_ (List.append_nil _) <;>
      simp only [hadd] <;> split_ifs <;> rfl
  | remove source =>
    cases hstep
    exact .none rfl rfl (List.append_nil _)
  | notify source code =>
    cases hstep
    exact .notified source code rfl rfl (List.append_nil _)
  | entry now =>
    cases hstep
    obtain ⟨hsame, call, hqueue, -, hpacket⟩ := UpdateProcessor.entry_spec h delay now
    refine .polled call hqueue hsame.allocated ?_
    simp only [hpacket]

/-- A source stays registered until it is removed. -/
theorem mem_refreshSources_step (h : loop.processor.Registered)
    (hstep : loop.step minPriority delay input = some loop') {source : Source}
    (hmem : source ∈ loop.processor.refreshSources) (hremove : input ≠ .remove source) :
    source ∈ loop'.processor.refreshSources := by
  cases input with
  | add other priority =>
    cases hstep
    have hadd := UpdateProcessor.addRefreshSource_eq h minPriority other priority
    simp only [hadd]
    split_ifs <;> exact List.mem_append_left _ hmem
  | remove other =>
    cases hstep
    have hne : source ≠ other := fun heq => hremove (by rw [heq])
    exact List.mem_filter.mpr ⟨hmem, by simpa using hne⟩
  | notify other code =>
    cases hstep
    exact hmem
  | entry now =>
    cases hstep
    have hsame := (UpdateProcessor.entry_spec h delay now).1
    simp only [hsame.refreshSources]
    exact hmem

omit [DecidableEq Source] in
@[simp] theorem serves_getD (call : Option (PacketCall Source)) :
    ((call.map TrackPacket.filled).getD .idle).serves = call.bind PacketCall.serves := by
  cases call <;> rfl

omit [DecidableEq Source] in
theorem allocated_start : Allocated (start : PacketLoop Source) :=
  ⟨by simp [start, UpdateProcessor.start], by simp [start]⟩

omit [DecidableEq Source] in
/-- A call that serves no buffer, or one from the queue, serves an allocated one. -/
theorem serves_lt (h : loop.Allocated) {call : Option (PacketCall Source)}
    (hqueue : UpdateProcessor.QueueStep loop.processor loop'.processor call) :
    (∀ b ∈ loop'.processor.priorityUpdates, b ∈ loop.processor.priorityUpdates) ∧
    ∀ buffer ∈ call.bind PacketCall.serves, buffer < loop.processor.allocated := by
  cases hqueue with
  | kept _ hserves hperm =>
    refine ⟨fun b hb => hperm.mem_iff.mp hb, ?_⟩
    cases call with
    | none => simp
    | some call => simp [hserves call rfl]
  | dropped b hb _ _ hserves =>
    refine ⟨fun other hother => by simp [hb, hother], ?_⟩
    cases call with
    | none => simp
    | some call => simp [hserves call rfl]
  | served b hb =>
    refine ⟨fun other hother => by simp [hb, hother], ?_⟩
    simpa using h.queue b (by simp [hb])

omit [DecidableEq Source] in
theorem Allocated.step (h : loop.Allocated) (hstep : BufferStep loop loop') : loop'.Allocated := by
  cases hstep with
  | none hqueue hallocated htrack =>
    refine ⟨?_, ?_⟩
    · rw [hqueue, hallocated]
      exact h.queue
    · rw [htrack, hallocated]
      exact h.track
  | notified source code hqueue hallocated htrack =>
    refine ⟨?_, ?_⟩
    · rw [hqueue, hallocated]
      intro b hb
      rcases List.mem_append.mp hb with hold | hnew
      · exact Nat.lt_succ_of_lt (h.queue b hold)
      · rw [List.mem_singleton.mp hnew]
        exact Nat.lt_succ_self _
    · rw [htrack, hallocated]
      exact fun packet hpacket buffer hbuffer =>
        Nat.lt_succ_of_lt (h.track packet hpacket buffer hbuffer)
  | polled call hqueue hallocated htrack =>
    obtain ⟨hsubset, hserves⟩ := serves_lt h hqueue
    refine ⟨?_, ?_⟩
    · rw [hallocated]
      exact fun b hb => h.queue b (hsubset b hb)
    · rw [htrack, hallocated]
      intro packet hpacket buffer hbuffer
      rcases List.mem_append.mp hpacket with hold | hnew
      · exact h.track packet hold buffer hbuffer
      · rw [List.mem_singleton.mp hnew, serves_getD] at hbuffer
        exact hserves buffer hbuffer

omit [DecidableEq Source] in
/-- A poll that serves nothing sends no packet for the buffer. -/
theorem served_of_none {call : Option (PacketCall Source)} {buffer : Nat}
    (htrack : loop'.track = loop.track ++ [(call.map TrackPacket.filled).getD .idle])
    (hserves : ∀ c ∈ call, c.serves = none) : loop'.served buffer = loop.served buffer := by
  cases call with
  | none => simp [served, htrack, TrackPacket.serves]
  | some call => simp [served, htrack, TrackPacket.serves, hserves call rfl]

omit [DecidableEq Source] in
/-- The count of a buffer, in the queue and served, never grows, and it shrinks only when its source
is not registered. -/
theorem Accounted.count {source : Source} {code buffer : Nat}
    (h : loop.Accounted source code buffer) (hstep : BufferStep loop loop') :
    loop'.waiting buffer + loop'.served buffer ≤ loop.waiting buffer + loop.served buffer ∧
    (source ∈ loop.processor.refreshSources →
      loop'.waiting buffer + loop'.served buffer = loop.waiting buffer + loop.served buffer) := by
  cases hstep with
  | none hqueue _ htrack => simp [waiting, served, hqueue, htrack]
  | notified other code' hqueue _ htrack =>
    have hne : ¬ loop.processor.allocated = buffer := by
      have hlt := h.allocated
      omega
    simp [waiting, served, hqueue, htrack, hne]
  | polled call hqueue _ htrack =>
    cases hqueue with
    | kept _ hserves hperm =>
      have hwaiting : loop'.waiting buffer = loop.waiting buffer := hperm.countP_eq _
      simp [hwaiting, served_of_none htrack hserves]
    | dropped b hb hremoved _ hserves =>
      have hwaiting : loop.waiting buffer =
          loop'.waiting buffer + if b.buffer = buffer then 1 else 0 := by
        simp [waiting, hb, List.countP_cons]
      rw [hwaiting, served_of_none htrack hserves]
      refine ⟨by omega, fun hmem => ?_⟩
      have hne : b.buffer ≠ buffer := by
        intro heq
        exact hremoved ((h.queue b (by simp [hb]) heq).1 ▸ hmem)
      simp [hne]
    | served b hb =>
      have hwaiting : loop.waiting buffer =
          loop'.waiting buffer + if b.buffer = buffer then 1 else 0 := by
        simp [waiting, hb, List.countP_cons]
      have hserved : loop'.served buffer =
          loop.served buffer + if b.buffer = buffer then 1 else 0 := by
        simp [served, htrack, TrackPacket.serves, List.countP_cons]
      rw [hwaiting, hserved]
      exact ⟨by omega, fun _ => by omega⟩

omit [DecidableEq Source] in
theorem Accounted.step {source : Source} {code buffer : Nat}
    (h : loop.Accounted source code buffer) (hstep : BufferStep loop loop') :
    loop'.Accounted source code buffer := by
  have honce : loop'.waiting buffer + loop'.served buffer ≤ 1 :=
    Nat.le_trans (h.count hstep).1 h.once
  cases hstep with
  | none hqueue hallocated htrack =>
    exact ⟨hallocated ▸ h.allocated, hqueue ▸ h.queue, htrack ▸ h.track, honce⟩
  | notified other code' hqueue hallocated htrack =>
    refine ⟨hallocated ▸ Nat.lt_succ_of_lt h.allocated, ?_, htrack ▸ h.track, honce⟩
    rw [hqueue]
    intro b hb heq
    rcases List.mem_append.mp hb with hold | hnew
    · exact h.queue b hold heq
    · rw [List.mem_singleton.mp hnew] at heq
      exact absurd heq.symm (Nat.ne_of_lt h.allocated)
  | polled call hqueue hallocated htrack =>
    have hcall : ∀ c ∈ call, c.serves = some buffer → c.source = source ∧ c.code = code := by
      intro c hc hserves
      cases hqueue with
      | kept _ hnone _ => simp [hnone c hc] at hserves
      | dropped _ _ _ _ hnone => simp [hnone c hc] at hserves
      | served b hb =>
        cases hc
        exact h.queue b (by simp [hb]) (by simpa using hserves)
    refine ⟨hallocated ▸ h.allocated, fun b hb => h.queue b ?_, ?_, honce⟩
    · cases hqueue with
      | kept _ _ hperm => exact hperm.mem_iff.mp hb
      | dropped _ hcons _ _ _ => simp [hcons, hb]
      | served _ hcons => simp [hcons, hb]
    · rw [htrack]
      intro c hc hserves
      rcases List.mem_append.mp hc with hold | hnew
      · exact h.track c hold hserves
      · cases call with
        | none => simp at hnew
        | some call =>
          have heq : c = call := by simpa using hnew
          exact hcall c (by simp [heq]) hserves

/-- A new update is in the queue once and not served. -/
theorem accounted_notify (h : loop.Allocated) {source : Source} {code : Nat}
    (hstep : loop.step minPriority delay (.notify source code) = some loop') :
    loop'.Accounted source code loop.processor.allocated ∧
    loop'.waiting loop.processor.allocated + loop'.served loop.processor.allocated = 1 := by
  have hwaiting : loop.processor.priorityUpdates.countP (·.buffer = loop.processor.allocated) = 0 := by
    rw [List.countP_eq_zero]
    intro b hb
    simpa using Nat.ne_of_lt (h.queue b hb)
  have hserved : loop.served loop.processor.allocated = 0 := by
    rw [served, List.countP_eq_zero]
    intro packet hpacket heq
    exact Nat.lt_irrefl _ (h.track packet hpacket _ (by simpa using heq))
  cases hstep
  have hone : waiting ⟨loop.processor.notifyUpdate source code, loop.track ++ []⟩
      loop.processor.allocated + served ⟨loop.processor.notifyUpdate source code, loop.track ++ []⟩
      loop.processor.allocated = 1 := by
    simp only [served] at hserved
    simp [waiting, served, UpdateProcessor.notifyUpdate, hwaiting, hserved]
  refine ⟨⟨Nat.lt_succ_self _, ?_, ?_, Nat.le_of_eq hone⟩, hone⟩
  · intro b hb heq
    rcases List.mem_append.mp hb with hold | hnew
    · exact absurd heq (Nat.ne_of_lt (h.queue b hold))
    · rw [List.mem_singleton.mp hnew]
      exact ⟨rfl, rfl⟩
  · intro call hcall hserves
    have hlt := h.track (.filled call) (by simpa using hcall) _ hserves
    exact absurd hlt (Nat.lt_irrefl _)

theorem registered_step (h : loop.processor.Registered)
    (hstep : loop.step minPriority delay input = some loop') : loop'.processor.Registered := by
  cases hstep
  exact h.handle minPriority delay input

theorem registered_allocated_of_run {history : List (ProcessorInput Source)}
    (hrun : Trace.run (step minPriority delay) start history = some loop) :
    loop.processor.Registered ∧ loop.Allocated :=
  Trace.invariant_of_step (I := fun _ loop => loop.processor.Registered ∧ loop.Allocated)
    ⟨UpdateProcessor.registered_start, allocated_start⟩
    (fun _ _ _ _ h hstep => ⟨registered_step h.1 hstep, h.2.step (bufferStep h.1 hstep)⟩) hrun

/-- What a whole run preserves of one update. -/
theorem Accounted.run {source : Source} {code buffer : Nat}
    (hregistered : loop.processor.Registered) (h : loop.Accounted source code buffer)
    {future : List (ProcessorInput Source)}
    (hrun : Trace.run (PacketLoop.step minPriority delay) loop future = some loop') :
    loop'.Accounted source code buffer ∧
    (source ∈ loop.processor.refreshSources → .remove source ∉ future →
      source ∈ loop'.processor.refreshSources ∧
      loop'.waiting buffer + loop'.served buffer = loop.waiting buffer + loop.served buffer) := by
  have hinvariant := Trace.invariant_of_step
    (I := fun future (loop' : PacketLoop Source) => loop'.processor.Registered ∧
      loop'.Accounted source code buffer ∧
      (source ∈ loop.processor.refreshSources → .remove source ∉ future →
        source ∈ loop'.processor.refreshSources ∧
        loop'.waiting buffer + loop'.served buffer = loop.waiting buffer + loop.served buffer))
    ⟨hregistered, h, fun hmem _ => ⟨hmem, rfl⟩⟩ ?_ hrun
  · exact hinvariant.2
  · rintro past input mid loop' ⟨hmid, haccounted, hkept⟩ hstep
    have hbuffer := bufferStep hmid hstep
    refine ⟨registered_step hmid hstep, haccounted.step hbuffer, fun hmem hremove => ?_⟩
    rw [List.mem_append, List.mem_singleton, not_or] at hremove
    obtain ⟨hmem', hcount⟩ := hkept hmem hremove.1
    exact ⟨mem_refreshSources_step hmid hstep hmem' (Ne.symm hremove.2),
      ((haccounted.count hbuffer).2 hmem').trans hcount⟩

end

/-- A call sends one packet to the track if it is a poll, and none else, and the source that fills
the packet is registered. -/
def SendsOnPoll (loop : PacketLoop Source) (input : ProcessorInput Source)
    (loop' : PacketLoop Source) : Prop :=
  ∃ packets, loop'.track = loop.track ++ packets ∧
    packets.length = (match input with | .entry _ => 1 | _ => 0) ∧
    ∀ call, .filled call ∈ packets → call.source ∈ loop.processor.refreshSources

theorem sendsOnPoll {minPriority : Nat} {delay : Int} {loop loop' : PacketLoop Source}
    {input : ProcessorInput Source} (h : loop.processor.Registered)
    (hstep : loop.step minPriority delay input = some loop') : SendsOnPoll loop input loop' := by
  cases hstep
  refine ⟨_, rfl, ?_, ?_⟩
  · cases input <;> rfl
  · intro call hcall
    cases input with
    | add | remove | notify => simp at hcall
    | entry now =>
      obtain ⟨-, made, -, hsource, hpacket⟩ := UpdateProcessor.entry_spec h delay now
      simp only [List.mem_singleton, hpacket] at hcall
      cases made with
      | none => cases hcall
      | some made =>
        cases hcall
        exact hsource call rfl

theorem run_isSome (minPriority : Nat) (delay : Int) (history : List (ProcessorInput Source)) :
    ∃ loop, Trace.run (step minPriority delay) start history = some loop := by
  induction history using List.reverseRecOn with
  | nil => exact ⟨start, rfl⟩
  | append_singleton past input ih =>
    obtain ⟨loop, hrun⟩ := ih
    exact ⟨_, Trace.run_concat_eq_some.mpr ⟨loop, hrun, rfl⟩⟩

/-- Along every sequence of calls, whatever the clock reads: the map has the registered sources as
its keys; each poll sends one packet, filled by a registered source or idle; and an update notified
for a registered source is in the queue or was served, once in all, until the source is removed, and
never twice. -/
theorem updates_served_once (minPriority : Nat) (delay : Int)
    (history : List (ProcessorInput Source)) :
    ∃ loop, Trace.run (step minPriority delay) start history = some loop ∧
      Trace.Always (step minPriority delay)
        (fun _ loop => ∀ source, (loop.processor.packetSourceStates source).isSome ↔
          source ∈ loop.processor.refreshSources) start history ∧
      Trace.EachStep (step minPriority delay)
        (fun _ loop input loop' => SendsOnPoll loop input loop') start history ∧
      ∀ past source code future before, history = past ++ .notify source code :: future →
        Trace.run (step minPriority delay) start past = some before →
        source ∈ before.processor.refreshSources →
        loop.Accounted source code before.processor.allocated ∧
        (.remove source ∉ future →
          loop.waiting before.processor.allocated + loop.served before.processor.allocated = 1) := by
  obtain ⟨loop, hrun⟩ := run_isSome minPriority delay history
  refine ⟨loop, hrun, ?_, ?_, ?_⟩
  · intro past _ loop' _ hpast
    exact (registered_allocated_of_run hpast).1.keys
  · intro past input _ loop' loop'' _ hpast hstep
    exact sendsOnPoll (registered_allocated_of_run hpast).1 hstep
  · rintro past source code future before rfl hpast hmem
    obtain ⟨hregistered, hallocated⟩ := registered_allocated_of_run hpast
    rw [List.append_cons, Trace.run_append, Trace.run_concat, hpast, Option.bind_some] at hrun
    obtain ⟨notified, hstep, hfuture⟩ := Option.bind_eq_some_iff.mp hrun
    obtain ⟨haccounted, hone⟩ := accounted_notify hallocated hstep
    obtain ⟨hfinal, hcount⟩ := haccounted.run (registered_step hregistered hstep) hfuture
    refine ⟨hfinal, fun hremove => ?_⟩
    have hstays := mem_refreshSources_step hregistered hstep hmem (by simp)
    exact (hcount hstays hremove).2.trans hone

end PacketLoop

end OpenmrnCue.CommandStation
