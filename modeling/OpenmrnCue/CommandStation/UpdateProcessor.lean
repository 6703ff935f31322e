import OpenmrnCue.Library.Trace
import Mathlib.Algebra.Order.Ring.Int

/-! The packet loop: `UpdateProcessor` of `UpdateProcessor.hxx` and `UpdateProcessor.cxx`, with the
calls it makes on the packet sources and the packets it sends to the track.  `Source` stands for the
addresses of the packet sources. -/

namespace OpenmrnCue.CommandStation

/-- `SourceState`.  Times are in nanoseconds. -/
structure SourceState where
  lastPacketTime : Int
  priority : Nat
deriving DecidableEq, Repr

/-- An entry that `operator[]` creates is value-initialised. -/
instance : Inhabited SourceState := ⟨⟨0, 0⟩⟩

/-- `PriorityUpdate`, with the buffer that holds it: the buffers are numbered as they are
allocated. -/
structure PriorityUpdate (Source : Type) where
  buffer : Nat
  source : Source
  code : Nat
deriving DecidableEq, Repr

/-- A call `get_next_packet(code, ...)` on a source, and the buffer of the urgent update that it
serves, if it serves one. -/
structure PacketCall (Source : Type) where
  source : Source
  code : Nat
  serves : Option Nat
deriving DecidableEq, Repr

/-- A packet sent to the track: the idle packet, or the one that a call filled. -/
inductive TrackPacket (Source : Type) where
  | idle
  | filled (call : PacketCall Source)
deriving DecidableEq, Repr

/-- `packetSourceStates_`. -/
def SourceStates (Source : Type) := Source → Option SourceState

/-- `UpdateProcessor`.  The two indices have 15 bits; `allocated` numbers the buffers. -/
structure UpdateProcessor (Source : Type) where
  priorityUpdates : List (PriorityUpdate Source)
  refreshSources : List Source
  packetSourceStates : SourceStates Source
  nextRefreshIndex : Nat
  exclusiveIndex : Nat
  hasRefreshSource : Bool
  allocated : Nat

/-- `NO_EXCLUSIVE`. -/
def noExclusive : Nat := 0x7FF

variable {Source : Type} [DecidableEq Source]

namespace SourceStates

/-- The value that `operator[]` refers to. -/
def get (states : SourceStates Source) (source : Source) : SourceState :=
  (states source).getD default

def set (states : SourceStates Source) (source : Source) (state : SourceState) :
    SourceStates Source :=
  fun other => if other = source then some state else states other

/-- What `operator[]` leaves of the map: a missing entry is created. -/
def touch (states : SourceStates Source) (source : Source) : SourceStates Source :=
  states.set source (states.get source)

def erase (states : SourceStates Source) (source : Source) : SourceStates Source :=
  fun other => if other = source then none else states other

@[simp] theorem touch_of_isSome {states : SourceStates Source} {source : Source}
    (h : (states source).isSome) : states.touch source = states := by
  obtain ⟨state, hstate⟩ := Option.isSome_iff_exists.mp h
  funext other
  by_cases heq : other = source
  · subst heq
    simp [touch, set, get, hstate]
  · simp [touch, set, heq]

theorem get_set (states : SourceStates Source) (source other : Source) (state : SourceState) :
    (states.set source state).get other = if other = source then state else states.get other := by
  by_cases heq : other = source <;> simp [get, set, heq]

theorem isSome_set (states : SourceStates Source) (source other : Source) (state : SourceState) :
    ((states.set source state) other).isSome ↔ other = source ∨ (states other).isSome := by
  by_cases heq : other = source <;> simp [set, heq]

end SourceStates

namespace UpdateProcessor

/-- The processor after construction. -/
def start : UpdateProcessor Source where
  priorityUpdates := []
  refreshSources := []
  packetSourceStates := fun _ => none
  nextRefreshIndex := 0
  exclusiveIndex := noExclusive
  hasRefreshSource := false
  allocated := 0

/-- `has_exclusive`. -/
def hasExclusive (p : UpdateProcessor Source) : Bool := p.exclusiveIndex != noExclusive

/-- The source that `exclusiveIndex_` points to. -/
def exclusive (p : UpdateProcessor Source) : Option Source :=
  if p.hasExclusive then p.refreshSources[p.exclusiveIndex]? else none

def priority (p : UpdateProcessor Source) (source : Source) : Nat :=
  (p.packetSourceStates.get source).priority

/-- The first lines of `add_refresh_source`: the source and its state are stored. -/
def pushSource (p : UpdateProcessor Source) (source : Source) (priority : Nat) :
    UpdateProcessor Source :=
  { p with
    refreshSources := p.refreshSources ++ [source]
    hasRefreshSource := true
    packetSourceStates := p.packetSourceStates.set source ⟨0, priority⟩ }

/-- `last_priority`: the priority of the exclusive source, 0 without one. -/
def lastPriority (p : UpdateProcessor Source) : Nat :=
  match p.exclusive with
  | some last => p.priority last
  | none => 0

/-- What reading `last_priority` leaves of the map. -/
def touchExclusive (p : UpdateProcessor Source) : UpdateProcessor Source :=
  match p.exclusive with
  | some last => { p with packetSourceStates := p.packetSourceStates.touch last }
  | none => p

/-- `add_refresh_source`, with its result.  `minPriority` is `EXCLUSIVE_MIN_PRIORITY`. -/
def addRefreshSource (minPriority : Nat) (p : UpdateProcessor Source) (source : Source)
    (priority : Nat) : Bool × UpdateProcessor Source :=
  let p := p.pushSource source priority
  if minPriority ≤ priority then
    let last := p.lastPriority
    let p := p.touchExclusive
    if last < priority then
      (true, { p with exclusiveIndex := (p.refreshSources.length - 1) % 2 ^ 15 })
    else (false, p)
  else (!p.hasExclusive, p)

/-- The variables of the loop in `remove_refresh_source`. -/
structure Recompute (Source : Type) where
  states : SourceStates Source
  maxPriority : Nat
  maxIndex : Nat

/-- The body of the loop in `remove_refresh_source`. -/
def recomputeStep (loop : Recompute Source) (entry : Source × Nat) : Recompute Source :=
  let (source, i) := entry
  let st := loop.states.get source
  let loop := { loop with states := loop.states.touch source }
  if loop.maxPriority ≤ st.priority then { loop with maxIndex := i, maxPriority := st.priority }
  else loop

/-- `remove_refresh_source`. -/
def removeRefreshSource (minPriority : Nat) (p : UpdateProcessor Source) (source : Source) :
    UpdateProcessor Source :=
  let sources := p.refreshSources.filter (· ≠ source)
  let start : Recompute Source := ⟨p.packetSourceStates.erase source, minPriority, noExclusive⟩
  let loop := sources.zipIdx.foldl recomputeStep start
  { p with
    refreshSources := sources
    hasRefreshSource := if sources.isEmpty then false else p.hasRefreshSource
    packetSourceStates := loop.states
    exclusiveIndex := loop.maxIndex % 2 ^ 15 }

/-- `notify_update`. -/
def notifyUpdate (p : UpdateProcessor Source) (source : Source) (code : Nat) :
    UpdateProcessor Source :=
  { p with
    priorityUpdates := p.priorityUpdates ++ [⟨p.allocated, source, code⟩]
    allocated := p.allocated + 1 }

/-- The first part of `entry`: the call for the exclusive source or for the next urgent update.
An update of a source that was served less than `delay` ago goes back to the queue, and an update of
a source that was removed is dropped. -/
def nextUrgent (delay : Int) (p : UpdateProcessor Source) (now : Int) :
    Option (PacketCall Source) × UpdateProcessor Source :=
  if p.hasExclusive then
    (p.refreshSources[p.exclusiveIndex]?.map fun source => ⟨source, 0, none⟩, p)
  else
    match p.priorityUpdates with
    | [] => (none, p)
    | b :: rest =>
      match p.packetSourceStates b.source with
      | none => (none, { p with priorityUpdates := rest })
      | some state =>
        if now - delay < state.lastPacketTime then
          (none, { p with priorityUpdates := rest ++ [b] })
        else (some ⟨b.source, b.code, some b.buffer⟩, { p with priorityUpdates := rest })

/-- The loop in `entry` that finds the next background source, with `tries` rounds left. -/
def nextRefresh (delay : Int) (p : UpdateProcessor Source) (now : Int) :
    Nat → Option (PacketCall Source) × UpdateProcessor Source
  | 0 => (none, p)
  | tries + 1 =>
    let index := if p.refreshSources.length ≤ p.nextRefreshIndex then 0 else p.nextRefreshIndex
    match p.refreshSources[index]? with
    | none => (none, p)
    | some source =>
      let p := { p with
        nextRefreshIndex := (index + 1) % 2 ^ 15
        packetSourceStates := p.packetSourceStates.touch source }
      if (p.packetSourceStates.get source).lastPacketTime < now - delay then
        (some ⟨source, 0, none⟩, p)
      else nextRefresh delay p now tries

/-- The call that `entry` decides on. -/
def nextCall (delay : Int) (p : UpdateProcessor Source) (now : Int) :
    Option (PacketCall Source) × UpdateProcessor Source :=
  match p.nextUrgent delay now with
  | (some call, p) => (some call, p)
  | (none, p) =>
    if p.hasRefreshSource then p.nextRefresh delay now p.refreshSources.length else (none, p)

/-- `packetSourceStates_[s].lastPacketTime_ = now`. -/
def stamp (p : UpdateProcessor Source) (source : Source) (now : Int) : UpdateProcessor Source :=
  let state := p.packetSourceStates.get source
  { p with packetSourceStates :=
      p.packetSourceStates.set source { state with lastPacketTime := now } }

/-- `entry`: the packet sent to the track and the processor after it.  `delay` is
`dcc_packet_min_refresh_delay_ms` in nanoseconds and `now` what the clock reads. -/
def entry (delay : Int) (p : UpdateProcessor Source) (now : Int) :
    TrackPacket Source × UpdateProcessor Source :=
  match p.nextCall delay now with
  | (some call, p) => (.filled call, p.stamp call.source now)
  | (none, p) => (.idle, p)

end UpdateProcessor

/-- The calls that other parts of the program make on the processor. -/
inductive ProcessorInput (Source : Type) where
  | add (source : Source) (priority : Nat)
  | remove (source : Source)
  | notify (source : Source) (code : Nat)
  | entry (now : Int)
deriving DecidableEq, Repr

namespace UpdateProcessor

/-- The processor after a call, and the packets sent to the track during it. -/
def handle (minPriority : Nat) (delay : Int) (p : UpdateProcessor Source) :
    ProcessorInput Source → List (TrackPacket Source) × UpdateProcessor Source
  | .add source priority => ([], (p.addRefreshSource minPriority source priority).2)
  | .remove source => ([], p.removeRefreshSource minPriority source)
  | .notify source code => ([], p.notifyUpdate source code)
  | .entry now => ([(p.entry delay now).1], (p.entry delay now).2)

/-! The indices stay in range and the map has the keys it should have. -/

/-- The keys of the map are the registered sources, `hasRefreshSource_` says whether there are any,
and `exclusiveIndex_` is in range. -/
structure Registered (p : UpdateProcessor Source) : Prop where
  keys : ∀ source, (p.packetSourceStates source).isSome ↔ source ∈ p.refreshSources
  nonempty : p.hasRefreshSource = true ↔ p.refreshSources ≠ []
  inRange : p.exclusiveIndex = noExclusive ∨ p.exclusiveIndex < p.refreshSources.length

omit [DecidableEq Source] in
theorem registered_start : Registered (start : UpdateProcessor Source) :=
  ⟨by simp [start], by simp [start], Or.inl rfl⟩

theorem Registered.touch {p : UpdateProcessor Source} (h : p.Registered) {source : Source}
    (hmem : source ∈ p.refreshSources) : p.packetSourceStates.touch source = p.packetSourceStates :=
  SourceStates.touch_of_isSome ((h.keys source).mpr hmem)

omit [DecidableEq Source] in
theorem mem_of_exclusive {p : UpdateProcessor Source} {source : Source}
    (h : p.exclusive = some source) : source ∈ p.refreshSources := by
  unfold exclusive at h
  split_ifs at h
  exact List.mem_of_getElem? h

theorem Registered.pushSource {p : UpdateProcessor Source} (h : p.Registered) (source : Source)
    (priority : Nat) : (p.pushSource source priority).Registered := by
  refine ⟨fun other => ?_, ?_, ?_⟩
  · simp [UpdateProcessor.pushSource, SourceStates.isSome_set, h.keys, or_comm]
  · simp [UpdateProcessor.pushSource]
  · simp only [UpdateProcessor.pushSource, List.length_append, List.length_singleton]
    exact h.inRange.imp id Nat.lt_succ_of_lt

theorem Registered.touchExclusive {p : UpdateProcessor Source} (h : p.Registered) :
    p.touchExclusive = p := by
  unfold UpdateProcessor.touchExclusive
  split
  · next last hlast => rw [h.touch (mem_of_exclusive hlast)]
  · rfl

/-- What `add_refresh_source` does: the source becomes the last one, and it becomes the exclusive
one if its priority is exclusive and above that of the exclusive source so far. -/
theorem addRefreshSource_eq {p : UpdateProcessor Source} (h : p.Registered) (minPriority : Nat)
    (source : Source) (priority : Nat) :
    p.addRefreshSource minPriority source priority =
      if minPriority ≤ priority then
        if (p.pushSource source priority).lastPriority < priority then
          (true, { p.pushSource source priority with
            exclusiveIndex := p.refreshSources.length % 2 ^ 15 })
        else (false, p.pushSource source priority)
      else (!p.hasExclusive, p.pushSource source priority) := by
  have hlength : (p.pushSource source priority).refreshSources.length - 1 =
      p.refreshSources.length := by simp [pushSource]
  simp only [addRefreshSource, (h.pushSource source priority).touchExclusive, hlength]
  rfl

theorem Registered.addRefreshSource {p : UpdateProcessor Source} (h : p.Registered)
    (minPriority : Nat) (source : Source) (priority : Nat) :
    (p.addRefreshSource minPriority source priority).2.Registered := by
  have hpush := h.pushSource source priority
  rw [addRefreshSource_eq h]
  split_ifs
  · refine ⟨hpush.keys, hpush.nonempty, Or.inr ?_⟩
    have hle := Nat.mod_le p.refreshSources.length (2 ^ 15)
    simp only [UpdateProcessor.pushSource, List.length_append, List.length_singleton]
    omega
  · exact hpush
  · exact hpush

/-- What the loop of `remove_refresh_source` finds among the sources `seen`: nothing if none has an
exclusive priority, else the last one of the highest priority. -/
inductive Found (minPriority : Nat) (priority : Source → Nat) (seen : List Source)
    (maxPriority maxIndex : Nat) : Prop where
  | nothing (index : maxIndex = noExclusive) (least : maxPriority = minPriority)
      (below : ∀ source ∈ seen, priority source < minPriority)
  | last (front : List Source) (source : Source) (back : List Source)
      (split : seen = front ++ source :: back) (index : maxIndex = front.length)
      (least : minPriority ≤ maxPriority) (found : priority source = maxPriority)
      (highest : ∀ other ∈ front, priority other ≤ maxPriority)
      (after : ∀ other ∈ back, priority other < maxPriority)

omit [DecidableEq Source] in
/-- The loop has not missed a source of a higher priority. -/
theorem Found.highest {minPriority : Nat} {priority : Source → Nat} {seen : List Source}
    {maxPriority maxIndex : Nat} (h : Found minPriority priority seen maxPriority maxIndex)
    {other : Source} (hother : other ∈ seen) : priority other ≤ maxPriority := by
  cases h with
  | nothing _ hleast hbelow => exact hleast ▸ Nat.le_of_lt (hbelow other hother)
  | last front source back hsplit _ _ hfound hhighest hafter =>
    rw [hsplit, List.mem_append, List.mem_cons] at hother
    rcases hother with hfront | rfl | hback
    · exact hhighest other hfront
    · exact Nat.le_of_eq hfound
    · exact Nat.le_of_lt (hafter other hback)

omit [DecidableEq Source] in
/-- One round of the loop that takes a source of at least the highest priority so far. -/
theorem Found.take {minPriority : Nat} {priority : Source → Nat} {seen : List Source}
    {maxPriority maxIndex : Nat} {source : Source}
    (h : Found minPriority priority seen maxPriority maxIndex)
    (hmax : maxPriority ≤ priority source) :
    Found minPriority priority (seen ++ [source]) (priority source) seen.length := by
  refine .last seen source [] rfl rfl ?_ rfl ?_ (by simp)
  · cases h with
    | nothing _ hleast _ => rwa [hleast] at hmax
    | last _ _ _ _ _ hleast _ _ _ => exact Nat.le_trans hleast hmax
  · intro other hother
    exact Nat.le_trans (h.highest hother) hmax

omit [DecidableEq Source] in
/-- One round of the loop that passes a source of lower priority. -/
theorem Found.pass {minPriority : Nat} {priority : Source → Nat} {seen : List Source}
    {maxPriority maxIndex : Nat} {source : Source}
    (h : Found minPriority priority seen maxPriority maxIndex)
    (hmax : priority source < maxPriority) :
    Found minPriority priority (seen ++ [source]) maxPriority maxIndex := by
  cases h with
  | nothing hindex hleast hbelow =>
    refine .nothing hindex hleast fun other hother => ?_
    rcases List.mem_append.mp hother with hseen | hlast
    · exact hbelow other hseen
    · rw [List.mem_singleton.mp hlast]
      exact hleast ▸ hmax
  | last front x back hsplit hindex hleast hfound hhighest hafter =>
    refine .last front x (back ++ [source]) (by simp [hsplit]) hindex hleast hfound hhighest ?_
    intro other hother
    rcases List.mem_append.mp hother with hback | hlast
    · exact hafter other hback
    · rw [List.mem_singleton.mp hlast]
      exact hmax

/-- The whole loop, over sources that are keys of the map. -/
theorem found_recompute (minPriority : Nat) (states : SourceStates Source) (sources : List Source)
    (hkeys : ∀ source ∈ sources, (states source).isSome) :
    let loop := sources.zipIdx.foldl recomputeStep ⟨states, minPriority, noExclusive⟩
    loop.states = states ∧
    Found minPriority (fun source => (states.get source).priority) sources loop.maxPriority
      loop.maxIndex := by
  induction sources using List.reverseRecOn with
  | nil => exact ⟨rfl, .nothing rfl rfl (by simp)⟩
  | append_singleton seen source ih =>
    obtain ⟨hstates, hfound⟩ := ih fun other hother => hkeys other (by simp [hother])
    have hkey := hkeys source (by simp)
    simp only [List.zipIdx_append, List.foldl_append, List.zipIdx_singleton, List.foldl_cons,
      List.foldl_nil, Nat.zero_add]
    generalize List.foldl recomputeStep ⟨states, minPriority, noExclusive⟩ seen.zipIdx = loop
      at hstates hfound ⊢
    subst hstates
    simp only [recomputeStep, SourceStates.touch_of_isSome hkey]
    split_ifs with hmax
    · exact ⟨rfl, hfound.take hmax⟩
    · exact ⟨rfl, hfound.pass (Nat.lt_of_not_le hmax)⟩

theorem keys_erase {p : UpdateProcessor Source} (h : p.Registered) (source other : Source) :
    (p.packetSourceStates.erase source other).isSome ↔
      other ∈ p.refreshSources.filter (· ≠ source) := by
  by_cases heq : other = source <;> simp [SourceStates.erase, heq, h.keys]

/-- What `remove_refresh_source` does: the source and its state are gone, and the exclusive source
is the last one of the highest priority. -/
theorem found_removeRefreshSource {p : UpdateProcessor Source} (h : p.Registered)
    (minPriority : Nat) (source : Source) :
    let p' := p.removeRefreshSource minPriority source
    p'.packetSourceStates = p.packetSourceStates.erase source ∧
    ∃ maxPriority maxIndex, p'.exclusiveIndex = maxIndex % 2 ^ 15 ∧
      Found minPriority p'.priority p'.refreshSources maxPriority maxIndex := by
  intro p'
  obtain ⟨hstates, hfound⟩ := found_recompute minPriority (p.packetSourceStates.erase source)
    (p.refreshSources.filter (· ≠ source)) fun other hother => (keys_erase h source other).mpr hother
  have hpriority : p'.priority =
      fun other => ((p.packetSourceStates.erase source).get other).priority := by
    funext other
    exact congrArg (fun states => (SourceStates.get states other).priority) hstates
  rw [hpriority]
  exact ⟨hstates, _, _, rfl, hfound⟩

theorem Registered.removeRefreshSource {p : UpdateProcessor Source} (h : p.Registered)
    (minPriority : Nat) (source : Source) :
    (p.removeRefreshSource minPriority source).Registered := by
  obtain ⟨hstates, maxPriority, maxIndex, hindex, hfound⟩ :=
    found_removeRefreshSource h minPriority source
  refine ⟨fun other => ?_, ?_, ?_⟩
  · rw [hstates]
    exact keys_erase h source other
  · simp only [UpdateProcessor.removeRefreshSource]
    generalize hsources : p.refreshSources.filter (· ≠ source) = sources
    cases sources with
    | nil => simp
    | cons other rest =>
      have hfilter : other ∈ p.refreshSources.filter (· ≠ source) :=
        hsources ▸ List.mem_cons_self
      have hmem := (List.mem_filter.mp hfilter).1
      simpa using h.nonempty.mpr (List.ne_nil_of_mem hmem)
  · rw [hindex]
    cases hfound with
    | nothing hnone _ _ => exact Or.inl (by rw [hnone]; rfl)
    | last front x back hsplit hlength _ _ _ _ =>
      have hlt : maxIndex < (p.removeRefreshSource minPriority source).refreshSources.length := by
        rw [hsplit, hlength]
        simp
      exact Or.inr (Nat.lt_of_le_of_lt (Nat.mod_le _ _) hlt)

/-! What `entry` does. -/

/-- Nothing but the queue of urgent updates, the refresh index and the times of the last packets
differ. -/
structure SameSources (p p' : UpdateProcessor Source) : Prop where
  refreshSources : p'.refreshSources = p.refreshSources
  keys : ∀ source, (p'.packetSourceStates source).isSome = (p.packetSourceStates source).isSome
  priority : ∀ source, p'.priority source = p.priority source
  exclusiveIndex : p'.exclusiveIndex = p.exclusiveIndex
  hasRefreshSource : p'.hasRefreshSource = p.hasRefreshSource
  allocated : p'.allocated = p.allocated

omit [DecidableEq Source] in
theorem SameSources.refl (p : UpdateProcessor Source) : SameSources p p :=
  ⟨rfl, fun _ => rfl, fun _ => rfl, rfl, rfl, rfl⟩

omit [DecidableEq Source] in
theorem SameSources.trans {p q r : UpdateProcessor Source} (h1 : SameSources p q)
    (h2 : SameSources q r) : SameSources p r :=
  ⟨h2.refreshSources.trans h1.refreshSources, fun s => (h2.keys s).trans (h1.keys s),
    fun s => (h2.priority s).trans (h1.priority s), h2.exclusiveIndex.trans h1.exclusiveIndex,
    h2.hasRefreshSource.trans h1.hasRefreshSource, h2.allocated.trans h1.allocated⟩

omit [DecidableEq Source] in
theorem Registered.of_sameSources {p p' : UpdateProcessor Source} (h : p.Registered)
    (hsame : SameSources p p') : p'.Registered := by
  refine ⟨fun source => ?_, ?_, ?_⟩
  · rw [hsame.keys, hsame.refreshSources]
    exact h.keys source
  · rw [hsame.hasRefreshSource, hsame.refreshSources]
    exact h.nonempty
  · rw [hsame.exclusiveIndex, hsame.refreshSources]
    exact h.inRange

/-- What happens to the queue of urgent updates while `serves` is served. -/
inductive QueueStep (p p' : UpdateProcessor Source) : Option (PacketCall Source) → Prop where
  | kept (call : Option (PacketCall Source)) (serves : ∀ c ∈ call, c.serves = none)
      (queue : p'.priorityUpdates.Perm p.priorityUpdates) : QueueStep p p' call
  | dropped (b : PriorityUpdate Source) (queue : p.priorityUpdates = b :: p'.priorityUpdates)
      (removed : b.source ∉ p.refreshSources) (call : Option (PacketCall Source))
      (serves : ∀ c ∈ call, c.serves = none) : QueueStep p p' call
  | served (b : PriorityUpdate Source) (queue : p.priorityUpdates = b :: p'.priorityUpdates) :
      QueueStep p p' (some ⟨b.source, b.code, some b.buffer⟩)

omit [DecidableEq Source] in
theorem nextUrgent_spec {p : UpdateProcessor Source} (h : p.Registered) (delay now : Int) :
    SameSources p (p.nextUrgent delay now).2 ∧
    QueueStep p (p.nextUrgent delay now).2 (p.nextUrgent delay now).1 ∧
    ∀ c ∈ (p.nextUrgent delay now).1, c.source ∈ p.refreshSources := by
  unfold nextUrgent
  split
  · refine ⟨SameSources.refl p, .kept _ ?_ (List.Perm.refl _), ?_⟩
    · rintro c hc
      obtain ⟨source, -, rfl⟩ := Option.map_eq_some_iff.mp hc
      rfl
    · rintro c hc
      obtain ⟨source, hsource, rfl⟩ := Option.map_eq_some_iff.mp hc
      exact List.mem_of_getElem? hsource
  · split
    · exact ⟨SameSources.refl p, .kept _ (by simp) (List.Perm.refl _), by simp⟩
    · next b rest hqueue =>
      split
      · next hmissing =>
        refine ⟨⟨rfl, fun _ => rfl, fun _ => rfl, rfl, rfl, rfl⟩, .dropped b hqueue ?_ _ (by simp),
          by simp⟩
        rw [← h.keys, hmissing]
        simp
      · next state hstate =>
        have hmem : b.source ∈ p.refreshSources := by
          rw [← h.keys, hstate]
          rfl
        split_ifs
        · refine ⟨⟨rfl, fun _ => rfl, fun _ => rfl, rfl, rfl, rfl⟩, .kept _ (by simp) ?_, by simp⟩
          simp [hqueue, List.perm_append_singleton]
        · exact ⟨⟨rfl, fun _ => rfl, fun _ => rfl, rfl, rfl, rfl⟩, .served b hqueue,
            by simpa using hmem⟩

theorem nextRefresh_spec {p : UpdateProcessor Source} (h : p.Registered) (delay now : Int)
    (tries : Nat) :
    SameSources p (p.nextRefresh delay now tries).2 ∧
    (p.nextRefresh delay now tries).2.priorityUpdates = p.priorityUpdates ∧
    ∀ c ∈ (p.nextRefresh delay now tries).1, c.serves = none ∧ c.source ∈ p.refreshSources := by
  induction tries generalizing p with
  | zero => exact ⟨SameSources.refl p, rfl, by simp [nextRefresh]⟩
  | succ tries ih =>
    simp only [nextRefresh]
    generalize (if p.refreshSources.length ≤ p.nextRefreshIndex then 0 else p.nextRefreshIndex) =
      index
    split
    · exact ⟨SameSources.refl p, rfl, by simp⟩
    · next source hsource =>
      have hmem := List.mem_of_getElem? hsource
      simp only [h.touch hmem]
      split_ifs
      · exact ⟨⟨rfl, fun _ => rfl, fun _ => rfl, rfl, rfl, rfl⟩, rfl, by simpa using hmem⟩
      · obtain ⟨hsame, hqueue, hcall⟩ := ih (p := { p with nextRefreshIndex := (index + 1) % 2 ^ 15 })
          ⟨h.keys, h.nonempty, h.inRange⟩
        exact ⟨⟨hsame.refreshSources, hsame.keys, hsame.priority, hsame.exclusiveIndex,
          hsame.hasRefreshSource, hsame.allocated⟩, hqueue, hcall⟩

theorem nextCall_spec {p : UpdateProcessor Source} (h : p.Registered) (delay now : Int) :
    SameSources p (p.nextCall delay now).2 ∧
    QueueStep p (p.nextCall delay now).2 (p.nextCall delay now).1 ∧
    ∀ c ∈ (p.nextCall delay now).1, c.source ∈ p.refreshSources := by
  have hurgent := nextUrgent_spec h delay now
  unfold nextCall
  generalize p.nextUrgent delay now = urgent at hurgent
  obtain ⟨call, q⟩ := urgent
  obtain ⟨hsame, hqueue, hcall⟩ := hurgent
  cases call with
  | some call => exact ⟨hsame, hqueue, hcall⟩
  | none =>
    simp only
    split_ifs
    · obtain ⟨hsame', hqueue', hcall'⟩ := nextRefresh_spec (h.of_sameSources hsame) delay now
        q.refreshSources.length
      refine ⟨hsame.trans hsame', ?_, fun c hc => hsame.refreshSources ▸ (hcall' c hc).2⟩
      cases hqueue with
      | kept _ _ hperm => exact .kept _ (fun c hc => (hcall' c hc).1) (hqueue' ▸ hperm)
      | dropped b hb hremoved _ _ =>
        exact .dropped b (hqueue' ▸ hb) hremoved _ (fun c hc => (hcall' c hc).1)
    · exact ⟨hsame, hqueue, hcall⟩

theorem sameSources_stamp {p : UpdateProcessor Source} {source : Source}
    (hkey : (p.packetSourceStates source).isSome) (now : Int) :
    SameSources p (p.stamp source now) := by
  refine ⟨rfl, fun other => ?_, fun other => ?_, rfl, rfl, rfl⟩
  · rw [Bool.eq_iff_iff]
    simp only [stamp, SourceStates.isSome_set]
    constructor
    · rintro (rfl | h)
      · exact hkey
      · exact h
    · exact Or.inr
  · simp only [priority, stamp, SourceStates.get_set]
    split_ifs with heq
    · rw [heq]
    · rfl

/-- What a poll does: it sends one packet, filled by a registered source or idle, and the urgent
update that the packet serves, if any, leaves the queue. -/
theorem entry_spec {p : UpdateProcessor Source} (h : p.Registered) (delay now : Int) :
    SameSources p (p.entry delay now).2 ∧
    ∃ call, QueueStep p (p.entry delay now).2 call ∧ (∀ c ∈ call, c.source ∈ p.refreshSources) ∧
      (p.entry delay now).1 = (call.map TrackPacket.filled).getD .idle := by
  have hnext := nextCall_spec h delay now
  unfold entry
  generalize p.nextCall delay now = next at hnext
  obtain ⟨call, q⟩ := next
  obtain ⟨hsame, hqueue, hcall⟩ := hnext
  cases call with
  | none => exact ⟨hsame, none, hqueue, hcall, rfl⟩
  | some call =>
    have hkey : (q.packetSourceStates call.source).isSome := by
      rw [hsame.keys, h.keys]
      exact hcall call rfl
    refine ⟨hsame.trans (sameSources_stamp hkey now), some call, ?_, hcall, rfl⟩
    cases hqueue with
    | kept _ hserves hperm => exact QueueStep.kept _ hserves hperm
    | dropped b hb hremoved _ hserves =>
      have hb' : p.priorityUpdates = b :: (q.stamp call.source now).priorityUpdates := hb
      exact QueueStep.dropped b hb' hremoved _ hserves
    | served b hb => exact QueueStep.served b hb

theorem Registered.entry {p : UpdateProcessor Source} (h : p.Registered) (delay now : Int) :
    (p.entry delay now).2.Registered :=
  h.of_sameSources (entry_spec h delay now).1

/-- Every call on the processor keeps the map and the indices right. -/
theorem Registered.handle {p : UpdateProcessor Source} (h : p.Registered) (minPriority : Nat)
    (delay : Int) (input : ProcessorInput Source) :
    (p.handle minPriority delay input).2.Registered := by
  cases input with
  | add source priority => exact h.addRefreshSource minPriority source priority
  | remove source => exact h.removeRefreshSource minPriority source
  | notify source code => exact ⟨h.keys, h.nonempty, h.inRange⟩
  | entry now => exact h.entry delay now

end UpdateProcessor

end OpenmrnCue.CommandStation
