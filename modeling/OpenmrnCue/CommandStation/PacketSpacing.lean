import OpenmrnCue.CommandStation.UpdateProcessor

/-! The spacing of packets in the packet loop.  A source is asked for a packet only if its last one
is long enough ago, the idle packet is sent only if no source can be asked, and the background scan
goes round all sources.  A registration counts as a packet at time 0. -/

namespace OpenmrnCue.CommandStation

variable {Source : Type} [DecidableEq Source]

/-- What counts for the spacing of packets. -/
inductive SourceEvent (Source : Type) where
  | registered (source : Source)
  | sent (source : Source) (now : Int)
deriving DecidableEq, Repr

/-- The time from which the next packet of the source is spaced. -/
def SourceEvent.timeFor (source : Source) : SourceEvent Source → Option Int
  | registered other => if other = source then some 0 else none
  | sent other now => if other = source then some now else none

/-- When the source was last served: its last packet, or its registration if that came later. -/
def lastServed (log : List (SourceEvent Source)) (source : Source) : Int :=
  log.foldl (fun last event => (event.timeFor source).getD last) 0

theorem lastServed_concat (log : List (SourceEvent Source)) (event : SourceEvent Source)
    (source : Source) :
    lastServed (log ++ [event]) source = (event.timeFor source).getD (lastServed log source) := by
  rw [lastServed, List.foldl_append]
  rfl

/-- The processor with what has happened to its sources. -/
structure SpacedLoop (Source : Type) where
  processor : UpdateProcessor Source
  log : List (SourceEvent Source)

/-- A source that the background scan looks at, with its place and when it was last served. -/
structure Visit (Source : Type) where
  index : Nat
  source : Source
  now : Int
  last : Int
deriving DecidableEq, Repr

/-- The scan asks the source for a packet. -/
def Visit.asked (delay : Int) (v : Visit Source) : Bool := v.last < v.now - delay

namespace UpdateProcessor

/-- What a call does to the sources. -/
def events (delay : Int) (p : UpdateProcessor Source) :
    ProcessorInput Source → List (SourceEvent Source)
  | .add source _ => [.registered source]
  | .entry now =>
    match (p.entry delay now).1 with
    | .filled call => [.sent call.source now]
    | .idle => []
  | _ => []

def lastPacketTime (p : UpdateProcessor Source) (source : Source) : Int :=
  (p.packetSourceStates.get source).lastPacketTime

/-- The place of the next background source. -/
def refreshIndex (p : UpdateProcessor Source) : Nat :=
  if p.refreshSources.length ≤ p.nextRefreshIndex then 0 else p.nextRefreshIndex

/-- The sources that the loop in `entry` looks at, with `tries` rounds left. -/
def scan (delay : Int) (p : UpdateProcessor Source) (now : Int) : Nat → List (Visit Source)
  | 0 => []
  | tries + 1 =>
    match p.refreshSources[p.refreshIndex]? with
    | none => []
    | some source =>
      let v : Visit Source := ⟨p.refreshIndex, source, now, p.lastPacketTime source⟩
      let p := { p with nextRefreshIndex := (p.refreshIndex + 1) % 2 ^ 15 }
      v :: if v.asked delay then [] else p.scan delay now tries

/-- The sources that `entry` looks at in the background. -/
def scanned (delay : Int) (p : UpdateProcessor Source) (now : Int) : List (Visit Source) :=
  match p.nextUrgent delay now with
  | (some _, _) => []
  | (none, p) => if p.hasRefreshSource then p.scan delay now p.refreshSources.length else []

/-- The sources that are looked at during calls. -/
def visits (minPriority : Nat) (delay : Int) :
    UpdateProcessor Source → List (ProcessorInput Source) → List (Visit Source)
  | _, [] => []
  | p, input :: calls =>
    (match input with | .entry now => p.scanned delay now | _ => []) ++
      visits minPriority delay (p.handle minPriority delay input).2 calls

end UpdateProcessor

namespace SpacedLoop

def start : SpacedLoop Source := ⟨.start, []⟩

def step (minPriority : Nat) (delay : Int) (loop : SpacedLoop Source)
    (input : ProcessorInput Source) : Option (SpacedLoop Source) :=
  some ⟨(loop.processor.handle minPriority delay input).2,
    loop.log ++ loop.processor.events delay input⟩

end SpacedLoop

namespace UpdateProcessor

section Scan

variable {p : UpdateProcessor Source} (delay now : Int)

/-! ### The scan -/

omit [DecidableEq Source] in
theorem refreshIndex_lt (h : p.refreshSources ≠ []) : p.refreshIndex < p.refreshSources.length := by
  have hpos := List.length_pos_iff.mpr h
  unfold refreshIndex
  split
  · exact hpos
  · omega

omit [DecidableEq Source] in
/-- The next place, as long as the places have numbers of 15 bits. -/
theorem refreshIndex_next (h : p.refreshSources ≠ [])
    (hfew : p.refreshSources.length ≤ 2 ^ 15) :
    ({ p with nextRefreshIndex := (p.refreshIndex + 1) % 2 ^ 15 } :
      UpdateProcessor Source).refreshIndex =
        (p.refreshIndex + 1) % p.refreshSources.length := by
  have hlt := refreshIndex_lt h
  generalize p.refreshIndex = index at hlt ⊢
  rw [refreshIndex]
  simp only
  rcases Nat.lt_or_ge (index + 1) p.refreshSources.length with hnext | hlast
  · rw [Nat.mod_eq_of_lt (show index + 1 < 2 ^ 15 by omega), if_neg (by omega),
      Nat.mod_eq_of_lt hnext]
  · obtain heq : index + 1 = p.refreshSources.length := by omega
    rw [heq, Nat.mod_self]
    rcases Nat.lt_or_ge p.refreshSources.length (2 ^ 15) with hless | hfull
    · rw [Nat.mod_eq_of_lt hless, if_pos (Nat.le_refl _)]
    · obtain hmax : p.refreshSources.length = 2 ^ 15 := by omega
      rw [hmax, Nat.mod_self]
      split <;> rfl

omit [DecidableEq Source] in
theorem scan_of_nil (h : p.refreshSources = []) (tries : Nat) : p.scan delay now tries = [] := by
  cases tries with
  | zero => rfl
  | succ tries => simp [scan, h]

omit [DecidableEq Source] in
/-- One round of the scan. -/
theorem scan_succ (h : p.refreshSources ≠ []) (tries : Nat) :
    ∃ v : Visit Source, p.refreshSources[v.index]? = some v.source ∧ v.index = p.refreshIndex ∧
      v.now = now ∧ v.last = p.lastPacketTime v.source ∧
      p.scan delay now (tries + 1) = v :: if v.asked delay then []
        else ({ p with nextRefreshIndex := (p.refreshIndex + 1) % 2 ^ 15 } :
          UpdateProcessor Source).scan delay now tries := by
  obtain ⟨source, hsource⟩ : ∃ source, p.refreshSources[p.refreshIndex]? = some source :=
    ⟨_, List.getElem?_eq_getElem (refreshIndex_lt h)⟩
  refine ⟨⟨p.refreshIndex, source, now, p.lastPacketTime source⟩, hsource, rfl, rfl, rfl, ?_⟩
  rw [scan, hsource]

/-- One round of the loop in `entry`. -/
theorem nextRefresh_succ (h : p.Registered) {source : Source}
    (hsource : p.refreshSources[p.refreshIndex]? = some source) (tries : Nat) :
    p.nextRefresh delay now (tries + 1) = if p.lastPacketTime source < now - delay
      then (some ⟨source, 0, none⟩, { p with nextRefreshIndex := (p.refreshIndex + 1) % 2 ^ 15 })
      else ({ p with nextRefreshIndex := (p.refreshIndex + 1) % 2 ^ 15 } :
        UpdateProcessor Source).nextRefresh delay now tries := by
  have hround : p.nextRefresh delay now (tries + 1) =
      match p.refreshSources[p.refreshIndex]? with
      | none => (none, p)
      | some source =>
        let p := { p with
          nextRefreshIndex := (p.refreshIndex + 1) % 2 ^ 15
          packetSourceStates := p.packetSourceStates.touch source }
        if (p.packetSourceStates.get source).lastPacketTime < now - delay then
          (some ⟨source, 0, none⟩, p)
        else nextRefresh delay p now tries := rfl
  rw [hround, hsource]
  simp only [h.touch (List.mem_of_getElem? hsource)]
  rfl

/-- What the scan finds and leaves. -/
theorem nextRefresh_scan (h : p.Registered) (tries : Nat) :
    (p.nextRefresh delay now tries).1 = ((p.scan delay now tries).find? (·.asked delay)).map
      (fun v => ⟨v.source, 0, none⟩) ∧
    (p.nextRefresh delay now tries).2.packetSourceStates = p.packetSourceStates ∧
    (p.refreshSources.length ≤ 2 ^ 15 → p.refreshSources ≠ [] →
      (p.nextRefresh delay now tries).2.refreshIndex =
        (p.refreshIndex + (p.scan delay now tries).length) % p.refreshSources.length) := by
  induction tries generalizing p with
  | zero =>
    refine ⟨rfl, rfl, fun _ hne => ?_⟩
    exact (Nat.mod_eq_of_lt (refreshIndex_lt hne)).symm
  | succ tries ih =>
    by_cases hne : p.refreshSources = []
    · have hnone : p.nextRefresh delay now (tries + 1) = (none, p) := by simp [nextRefresh, hne]
      rw [hnone, scan_of_nil delay now hne]
      exact ⟨rfl, rfl, fun _ h => absurd hne h⟩
    obtain ⟨v, hsource, hindex, hnow, hlast, hscan⟩ := scan_succ delay now hne tries
    have hdue : v.asked delay = true ↔ p.lastPacketTime v.source < now - delay := by
      rw [Visit.asked, hnow, hlast, decide_eq_true_iff]
    rw [nextRefresh_succ delay now h (hindex ▸ hsource), hscan]
    by_cases hasked : v.asked delay = true
    · rw [if_pos (hdue.mp hasked), if_pos hasked]
      exact ⟨by simp [hasked], rfl, fun hfew _ => refreshIndex_next hne hfew⟩
    · obtain ⟨hcall, hstates, hplace⟩ :=
        ih (p := { p with nextRefreshIndex := (p.refreshIndex + 1) % 2 ^ 15 })
          ⟨h.keys, h.nonempty, h.inRange⟩
      rw [if_neg (fun hlt => hasked (hdue.mpr hlt)), if_neg hasked]
      refine ⟨?_, hstates, fun hfew _ => ?_⟩
      · rw [hcall, List.find?_cons_of_neg hasked]
      · rw [hplace hfew hne, refreshIndex_next hne hfew, List.length_cons, Nat.mod_add_mod,
          Nat.add_assoc, Nat.add_comm 1]

omit [DecidableEq Source] in
/-- The index counts to 15 bits. -/
theorem scan_index_lt (hmany : 2 ^ 15 ≤ p.refreshSources.length) (hindex : p.refreshIndex < 2 ^ 15)
    (tries : Nat) : ∀ v ∈ p.scan delay now tries, v.index < 2 ^ 15 := by
  have hne : p.refreshSources ≠ [] := by
    rintro hnil
    simp [hnil] at hmany
  induction tries generalizing p with
  | zero => exact fun v hv => absurd hv List.not_mem_nil
  | succ tries ih =>
    obtain ⟨v, -, hv, -, -, hscan⟩ := scan_succ delay now hne tries
    have hnext : ({ p with nextRefreshIndex := (p.refreshIndex + 1) % 2 ^ 15 } :
        UpdateProcessor Source).refreshIndex < 2 ^ 15 := by
      rw [refreshIndex]
      split
      · decide
      · exact Nat.mod_lt _ (by decide)
    rw [hscan]
    refine List.forall_mem_cons.mpr ⟨hv ▸ hindex, ?_⟩
    split
    · exact fun v hv => absurd hv List.not_mem_nil
    · exact ih (p := { p with nextRefreshIndex := (p.refreshIndex + 1) % 2 ^ 15 }) hmany hnext hne

omit [DecidableEq Source] in
/-- What the scan reads of the sources. -/
theorem scan_reads (tries : Nat) : ∀ v ∈ p.scan delay now tries,
    p.refreshSources[v.index]? = some v.source ∧ v.now = now ∧
      v.last = p.lastPacketTime v.source := by
  by_cases hne : p.refreshSources = []
  · rw [scan_of_nil delay now hne]
    exact fun v hv => absurd hv List.not_mem_nil
  induction tries generalizing p with
  | zero => exact fun v hv => absurd hv List.not_mem_nil
  | succ tries ih =>
    obtain ⟨v, hsource, -, hnow, hlast, hscan⟩ := scan_succ delay now hne tries
    have hrest := ih (p := { p with nextRefreshIndex := (p.refreshIndex + 1) % 2 ^ 15 }) hne
    rw [hscan]
    refine List.forall_mem_cons.mpr ⟨⟨hsource, hnow, hlast⟩, ?_⟩
    split
    · exact fun v hv => absurd hv List.not_mem_nil
    · exact hrest

omit [DecidableEq Source] in
/-- The scan ends at the source that it asks. -/
theorem find_scan {tries : Nat} {v : Visit Source} (hv : v ∈ p.scan delay now tries)
    (hasked : v.asked delay = true) :
    (p.scan delay now tries).find? (·.asked delay) = some v := by
  by_cases hne : p.refreshSources = []
  · rw [scan_of_nil delay now hne] at hv
    exact absurd hv List.not_mem_nil
  induction tries generalizing p with
  | zero => exact absurd hv List.not_mem_nil
  | succ tries ih =>
    obtain ⟨u, -, -, -, -, hscan⟩ := scan_succ delay now hne tries
    rw [hscan] at hv ⊢
    by_cases hfirst : u.asked delay = true
    · rw [if_pos hfirst] at hv
      rw [List.find?_cons_of_pos hfirst, List.mem_singleton.mp hv]
    · rw [if_neg hfirst] at hv ⊢
      rw [List.find?_cons_of_neg hfirst]
      rcases List.mem_cons.mp hv with rfl | hrest
      · exact absurd hasked hfirst
      · exact ih (p := { p with nextRefreshIndex := (p.refreshIndex + 1) % 2 ^ 15 }) hrest hne

omit [DecidableEq Source] in
/-- The places of the scan follow one another, and it ends at the first source that it asks. -/
theorem scan_places (hfew : p.refreshSources.length ≤ 2 ^ 15) (tries : Nat) :
    (∀ k v, (p.scan delay now tries)[k]? = some v →
      v.index = (p.refreshIndex + k) % p.refreshSources.length) ∧
    ((∀ v ∈ p.scan delay now tries, v.asked delay = false) → p.refreshSources ≠ [] →
      (p.scan delay now tries).length = tries) := by
  by_cases hne : p.refreshSources = []
  · rw [scan_of_nil delay now hne]
    exact ⟨by simp, fun _ h => absurd hne h⟩
  induction tries generalizing p with
  | zero => exact ⟨by simp [scan], fun _ _ => rfl⟩
  | succ tries ih =>
    obtain ⟨v, -, hindex, -, -, hscan⟩ := scan_succ delay now hne tries
    obtain ⟨hplaces, hlength⟩ :=
      ih (p := { p with nextRefreshIndex := (p.refreshIndex + 1) % 2 ^ 15 }) hfew hne
    rw [hscan]
    refine ⟨fun k u hu => ?_, fun hnone _ => ?_⟩
    · cases k with
      | zero =>
        obtain rfl : v = u := by simpa using hu
        rw [hindex, Nat.add_zero, Nat.mod_eq_of_lt (refreshIndex_lt hne)]
      | succ k =>
        rw [List.getElem?_cons_succ] at hu
        split at hu
        · simp at hu
        · rw [hplaces k u hu, refreshIndex_next hne hfew, Nat.mod_add_mod, Nat.add_assoc,
            Nat.add_comm 1]
    · obtain ⟨hfirst, hrest⟩ := List.forall_mem_cons.mp hnone
      rw [if_neg (by simp [hfirst])] at hrest ⊢
      rw [List.length_cons, hlength hrest hne]

/-- A source is looked at if the scan asks none. -/
theorem exists_scan (hfew : p.refreshSources.length ≤ 2 ^ 15)
    (hnone : ∀ v ∈ p.scan delay now p.refreshSources.length, v.asked delay = false)
    {source : Source} (hsource : source ∈ p.refreshSources) :
    ∃ v ∈ p.scan delay now p.refreshSources.length, v.source = source := by
  have hne : p.refreshSources ≠ [] := List.ne_nil_of_mem hsource
  obtain ⟨hplaces, hlength⟩ := scan_places delay now hfew p.refreshSources.length
  obtain ⟨index, hindex, heq⟩ := List.mem_iff_getElem.mp hsource
  have hstart := refreshIndex_lt hne
  obtain ⟨k, hk, hplace⟩ : ∃ k < p.refreshSources.length,
      (p.refreshIndex + k) % p.refreshSources.length = index := by
    rcases Nat.lt_or_ge index p.refreshIndex with hbefore | hfrom
    · refine ⟨p.refreshSources.length + index - p.refreshIndex, by omega, ?_⟩
      have hround : p.refreshIndex + (p.refreshSources.length + index - p.refreshIndex) =
          index + p.refreshSources.length := by omega
      rw [hround, Nat.add_mod_right, Nat.mod_eq_of_lt hindex]
    · refine ⟨index - p.refreshIndex, by omega, ?_⟩
      rw [Nat.add_sub_cancel' hfrom, Nat.mod_eq_of_lt hindex]
  rw [← hlength hnone hne] at hk
  have hat := hplaces k _ (List.getElem?_eq_getElem hk)
  have hmem := (scan_reads delay now _ _ (List.getElem_mem hk)).1
  refine ⟨_, List.getElem_mem hk, ?_⟩
  rw [hat, hplace, List.getElem?_eq_getElem hindex, heq] at hmem
  exact (Option.some.inj hmem).symm

end Scan

/-! ### One packet -/

section Entry

variable {p : UpdateProcessor Source} (delay now : Int)

theorem nextUrgent_states (p : UpdateProcessor Source) :
    (p.nextUrgent delay now).2.packetSourceStates = p.packetSourceStates := by
  unfold nextUrgent
  split
  · rfl
  · split
    · rfl
    · split
      · rfl
      · split <;> rfl

theorem nextCall_states (h : p.Registered) :
    (p.nextCall delay now).2.packetSourceStates = p.packetSourceStates := by
  have hstates := nextUrgent_states delay now p
  have hsame := (nextUrgent_spec h delay now).1
  unfold nextCall
  generalize p.nextUrgent delay now = urgent at hstates hsame
  obtain ⟨_ | call, q⟩ := urgent
  · simp only
    split
    · rw [← hstates]
      exact (nextRefresh_scan delay now (h.of_sameSources hsame) _).2.1
    · exact hstates
  · exact hstates

/-- A packet stamps its source. -/
theorem lastPacketTime_entry (h : p.Registered) (source : Source) :
    (p.entry delay now).2.lastPacketTime source =
      match (p.entry delay now).1 with
      | .filled call => if source = call.source then now else p.lastPacketTime source
      | .idle => p.lastPacketTime source := by
  have hstates := nextCall_states delay now h
  unfold entry
  generalize p.nextCall delay now = next at hstates
  obtain ⟨_ | call, q⟩ := next
  · simp only [lastPacketTime] at hstates ⊢
    rw [hstates]
  · simp only [lastPacketTime, stamp, SourceStates.get_set] at hstates ⊢
    rw [hstates]
    split <;> rfl

/-- The next urgent update, if there is one, cannot be served. -/
def UrgentWaits (p : UpdateProcessor Source) : Prop :=
  ∀ b ∈ p.priorityUpdates.head?,
    b.source ∉ p.refreshSources ∨ now - delay < p.lastPacketTime b.source

/-- The next urgent update goes back, is dropped or is served. -/
theorem nextUrgent_cases (h : p.Registered) (hexclusive : p.hasExclusive = false) :
    ∃ queue, (UrgentWaits delay now p ∧
        p.nextUrgent delay now = (none, { p with priorityUpdates := queue })) ∨
      (¬ UrgentWaits delay now p ∧ ∃ call,
        p.nextUrgent delay now = (some call, { p with priorityUpdates := queue }) ∧
        p.lastPacketTime call.source ≤ now - delay ∧ call.serves ≠ none) := by
  rw [nextUrgent, hexclusive, if_neg Bool.false_ne_true]
  cases hqueue : p.priorityUpdates with
  | nil => exact ⟨p.priorityUpdates, .inl ⟨by simp [UrgentWaits, hqueue], rfl⟩⟩
  | cons b rest =>
    have hwaits : UrgentWaits delay now p ↔
        b.source ∉ p.refreshSources ∨ now - delay < p.lastPacketTime b.source := by
      simp [UrgentWaits, hqueue]
    simp only
    cases hstate : p.packetSourceStates b.source with
    | none =>
      refine ⟨rest, .inl ⟨hwaits.mpr (.inl ?_), rfl⟩⟩
      rw [← h.keys, hstate]
      simp
    | some state =>
      have hmem : b.source ∈ p.refreshSources := by
        rw [← h.keys, hstate]
        rfl
      have hlast : p.lastPacketTime b.source = state.lastPacketTime := by
        simp [lastPacketTime, SourceStates.get, hstate]
      simp only
      by_cases hrecent : now - delay < state.lastPacketTime
      · rw [if_pos hrecent]
        exact ⟨rest ++ [b], .inl ⟨hwaits.mpr (.inr (hlast ▸ hrecent)), rfl⟩⟩
      · rw [if_neg hrecent]
        refine ⟨rest, .inr ⟨fun hw => ?_, _, rfl, ?_, by simp⟩⟩
        · rcases hwaits.mp hw with hnot | hlate
          · exact hnot hmem
          · exact hrecent (hlast ▸ hlate)
        · rw [hlast]
          omega

/-- What a poll does without an exclusive source: it serves the next urgent update, or else it scans
the sources. -/
inductive EntryCase (p : UpdateProcessor Source) : Prop where
  | urgent (call : PacketCall Source) (waits : ¬ UrgentWaits delay now p)
      (packet : (p.entry delay now).1 = .filled call) (serves : call.serves ≠ none)
      (spaced : p.lastPacketTime call.source ≤ now - delay) (visits : p.scanned delay now = [])
      (place : (p.entry delay now).2.refreshIndex = p.refreshIndex)
  | background (q : UpdateProcessor Source) (waits : UrgentWaits delay now p)
      (sources : q.refreshSources = p.refreshSources) (index : q.refreshIndex = p.refreshIndex)
      (reads : ∀ v ∈ p.scanned delay now, p.refreshSources[v.index]? = some v.source ∧
        v.now = now ∧ v.last = p.lastPacketTime v.source)
      (visits : p.scanned delay now = q.scan delay now q.refreshSources.length)
      (packet : (p.entry delay now).1 = (((p.scanned delay now).find? (·.asked delay)).map
        fun v => TrackPacket.filled ⟨v.source, 0, none⟩).getD .idle)
      (place : p.refreshSources.length ≤ 2 ^ 15 → p.refreshSources ≠ [] →
        (p.entry delay now).2.refreshIndex =
          (p.refreshIndex + (p.scanned delay now).length) % p.refreshSources.length)

theorem entry_cases (h : p.Registered) (hexclusive : p.hasExclusive = false) :
    EntryCase delay now p := by
  obtain ⟨queue, ⟨hwaits, hnext⟩ | ⟨hwaits, call, hnext, hspaced, hserves⟩⟩ :=
    nextUrgent_cases delay now h hexclusive
  · obtain ⟨q, hq⟩ : ∃ q : UpdateProcessor Source, q = { p with priorityUpdates := queue } :=
      ⟨_, rfl⟩
    rw [← hq] at hnext
    have hregistered : q.Registered := hq ▸ ⟨h.keys, h.nonempty, h.inRange⟩
    have hsources : q.refreshSources = p.refreshSources := hq ▸ rfl
    have hindex : q.refreshIndex = p.refreshIndex := hq ▸ rfl
    have hnil : q.hasRefreshSource = false → q.refreshSources = [] := by
      intro hhas
      by_contra hne
      exact absurd (hregistered.nonempty.mpr hne) (by simp [hhas])
    have hvisits : p.scanned delay now = q.scan delay now q.refreshSources.length := by
      rw [scanned, hnext]
      cases hhas : q.hasRefreshSource with
      | true => simp [hhas]
      | false => simp [hhas, scan_of_nil delay now (hnil hhas)]
    have hcall : p.nextCall delay now = q.nextRefresh delay now q.refreshSources.length := by
      rw [nextCall, hnext]
      cases hhas : q.hasRefreshSource with
      | true => simp [hhas]
      | false => simp [hhas, hnil hhas, nextRefresh]
    obtain ⟨hfound, -, hplace⟩ :=
      nextRefresh_scan delay now hregistered q.refreshSources.length
    have hpacket : (p.entry delay now).1 = ((p.nextCall delay now).1.map
        TrackPacket.filled).getD .idle := by
      rw [entry]
      rcases p.nextCall delay now with ⟨_ | call, q'⟩ <;> rfl
    have hafter : (p.entry delay now).2.refreshIndex = (p.nextCall delay now).2.refreshIndex := by
      rw [entry]
      rcases p.nextCall delay now with ⟨_ | call, q'⟩ <;> rfl
    have hreads : ∀ v ∈ p.scanned delay now, p.refreshSources[v.index]? = some v.source ∧
        v.now = now ∧ v.last = p.lastPacketTime v.source := by
      rw [hvisits, hq]
      exact scan_reads delay now _
    refine .background q hwaits hsources hindex hreads hvisits ?_ fun hfew hne => ?_
    · rw [hpacket, hcall, hfound, hvisits, Option.map_map]
      rfl
    · rw [hafter, hcall, hplace (hsources ▸ hfew) (hsources ▸ hne), hvisits, hindex, hsources]
  · have hcall : p.nextCall delay now = (some call, { p with priorityUpdates := queue }) := by
      rw [nextCall, hnext]
    have hentry : p.entry delay now =
        (.filled call, ({ p with priorityUpdates := queue } : UpdateProcessor Source).stamp
          call.source now) := by
      rw [entry, hcall]
    refine .urgent call hwaits ?_ hserves hspaced ?_ ?_
    · rw [hentry]
    · rw [scanned, hnext]
    · rw [hentry]
      rfl

end Entry

/-! ### Many packets -/

/-- A call that does not register or remove a source. -/
def Polls : ProcessorInput Source → Prop
  | .entry _ => True
  | .notify _ _ => True
  | _ => False

instance (input : ProcessorInput Source) : Decidable (Polls input) :=
  match input with
  | .entry _ | .notify _ _ => isTrue trivial
  | .add _ _ | .remove _ => isFalse id

section Polls

variable {p : UpdateProcessor Source} (minPriority : Nat) (delay : Int)

/-- The places of the background scan follow one another. -/
theorem visits_cyclic {calls : List (ProcessorInput Source)} (h : p.Registered)
    (hexclusive : p.hasExclusive = false) (hfew : p.refreshSources.length ≤ 2 ^ 15)
    (hpolls : ∀ input ∈ calls, Polls input) {k : Nat} {v : Visit Source}
    (hvisit : (visits minPriority delay p calls)[k]? = some v) :
    v.index = (p.refreshIndex + k) % p.refreshSources.length ∧
      p.refreshSources[v.index]? = some v.source := by
  induction calls generalizing p k with
  | nil => simp [visits] at hvisit
  | cons input calls ih =>
    obtain ⟨hfirst, hrest⟩ := List.forall_mem_cons.mp hpolls
    cases input with
    | add source priority => exact hfirst.elim
    | remove source => exact hfirst.elim
    | notify source code =>
      exact ih (h.handle minPriority delay (.notify source code)) hexclusive hfew hrest hvisit
    | entry now =>
      have hafter := h.handle minPriority delay (.entry now)
      have hsame := (entry_spec h delay now).1
      have hexclusive' : (p.entry delay now).2.hasExclusive = false := by
        rw [hasExclusive, hsame.exclusiveIndex]
        exact hexclusive
      have hfew' : (p.entry delay now).2.refreshSources.length ≤ 2 ^ 15 := by
        rw [hsame.refreshSources]
        exact hfew
      have hnext := fun {k} => ih (k := k) hafter hexclusive' hfew' hrest
      simp only [handle, hsame.refreshSources] at hnext
      rw [visits] at hvisit
      cases entry_cases delay now h hexclusive with
      | urgent call _ _ _ _ hvisits hplace =>
        rw [hvisits, List.nil_append] at hvisit
        rw [hplace] at hnext
        exact hnext hvisit
      | background q _ hsources hindex hreads hvisits _ hplace =>
        rcases Nat.lt_or_ge k (p.scanned delay now).length with hin | hout
        · rw [List.getElem?_append_left hin] at hvisit
          refine ⟨?_, (hreads v (List.mem_of_getElem? hvisit)).1⟩
          rw [hvisits] at hvisit
          rw [(scan_places delay now (hsources ▸ hfew) _).1 k v hvisit, hindex, hsources]
        · rw [List.getElem?_append_right hout] at hvisit
          obtain ⟨hat, hmem⟩ := hnext hvisit
          refine ⟨?_, hmem⟩
          have hne : p.refreshSources ≠ [] := by
            rintro hnil
            simp [hnil] at hmem
          rw [hat, hplace hfew hne, Nat.mod_add_mod, Nat.add_assoc, Nat.add_sub_cancel' hout]

/-- The scan goes round the sources in the order of their registration, and between two packets for
one place every other place is looked at; its source gets a packet unless it was served within the
delay. -/
structure Fair (p : UpdateProcessor Source) (visits : List (Visit Source)) : Prop where
  cyclic : ∀ (k : Nat) v, visits[k]? = some v →
    v.index = (p.refreshIndex + k) % p.refreshSources.length ∧
    p.refreshSources[v.index]? = some v.source
  between : ∀ before v between w after, visits = before ++ v :: between ++ w :: after →
    v.index = w.index → v.asked delay = true → w.asked delay = true →
    ∀ index < p.refreshSources.length, index ≠ v.index →
      ∃ u ∈ between, u.index = index ∧ (u.asked delay = true ∨ u.now - delay ≤ u.last)

theorem exists_round {count index target : Nat} (hindex : index < count) (htarget : target < count)
    (hne : target ≠ index) : ∃ d, 0 < d ∧ d < count ∧ (index + d) % count = target := by
  rcases Nat.lt_or_gt_of_ne hne with hbefore | hafter
  · refine ⟨count + target - index, by omega, by omega, ?_⟩
    have hround : index + (count + target - index) = target + count := by omega
    rw [hround, Nat.add_mod_right, Nat.mod_eq_of_lt htarget]
  · refine ⟨target - index, by omega, by omega, ?_⟩
    rw [Nat.add_sub_cancel' (by omega), Nat.mod_eq_of_lt htarget]

theorem fair_visits {calls : List (ProcessorInput Source)} (h : p.Registered)
    (hexclusive : p.hasExclusive = false) (hfew : p.refreshSources.length ≤ 2 ^ 15)
    (hpolls : ∀ input ∈ calls, Polls input) :
    Fair delay p (visits minPriority delay p calls) := by
  have hcyclic : ∀ (k : Nat) v, (visits minPriority delay p calls)[k]? = some v →
      v.index = (p.refreshIndex + k) % p.refreshSources.length ∧
      p.refreshSources[v.index]? = some v.source :=
    fun k v hv => visits_cyclic minPriority delay h hexclusive hfew hpolls hv
  refine ⟨hcyclic, ?_⟩
  intro before v between w after heq hsame _ _ index hindex hne
  have hat : ∀ d, (visits minPriority delay p calls)[before.length + d]? =
      (v :: between ++ w :: after)[d]? := by
    intro d
    rw [heq, List.append_assoc, List.getElem?_append_right (Nat.le_add_right _ _),
      Nat.add_sub_cancel_left]
  obtain ⟨hv, hsource⟩ := hcyclic before.length v (hat 0)
  obtain ⟨hw, -⟩ := hcyclic (before.length + (between.length + 1)) w (by rw [hat]; simp)
  have hlt : v.index < p.refreshSources.length := (List.getElem?_eq_some_iff.mp hsource).1
  -- the scan has gone round at least once
  have hround : p.refreshSources.length ≤ between.length + 1 := by
    refine Nat.le_of_dvd (Nat.succ_pos _) (Nat.dvd_of_mod_eq_zero ?_)
    have hmod := Nat.sub_mod_eq_zero_of_mod_eq (hw.symm.trans (hsame.symm.trans hv))
    rwa [← Nat.add_assoc, Nat.add_sub_cancel_left] at hmod
  obtain ⟨d, hpos, hd, htarget⟩ := exists_round hlt hindex hne
  obtain ⟨d, rfl⟩ : ∃ e, d = e + 1 := ⟨d - 1, by omega⟩
  have hbetween : d < between.length := by omega
  have hu : (visits minPriority delay p calls)[before.length + (d + 1)]? =
      some between[d] := by
    rw [hat, List.cons_append, List.getElem?_cons_succ, List.getElem?_append_left hbetween,
      List.getElem?_eq_getElem hbetween]
  obtain ⟨hplace, -⟩ := hcyclic _ _ hu
  refine ⟨between[d], List.getElem_mem hbetween, ?_, ?_⟩
  · rw [hplace, ← htarget, hv, Nat.mod_add_mod, Nat.add_assoc]
  · rw [Visit.asked, decide_eq_true_iff]
    omega

end Polls

end UpdateProcessor

namespace SpacedLoop

section Runs

variable {minPriority : Nat} {delay : Int} {loop loop' : SpacedLoop Source}

/-! ### Runs -/

/-- The times in the map are those of the log. -/
structure Logged (loop : SpacedLoop Source) : Prop where
  registered : loop.processor.Registered
  times : ∀ source ∈ loop.processor.refreshSources,
    loop.processor.lastPacketTime source = lastServed loop.log source

theorem logged_start : Logged (start : SpacedLoop Source) :=
  ⟨UpdateProcessor.registered_start, fun _ hmem => absurd hmem List.not_mem_nil⟩

theorem addRefreshSource_sources {p : UpdateProcessor Source} (h : p.Registered)
    (minPriority : Nat) (source : Source) (priority : Nat) :
    (p.addRefreshSource minPriority source priority).2.packetSourceStates =
      p.packetSourceStates.set source ⟨0, priority⟩ ∧
    (p.addRefreshSource minPriority source priority).2.refreshSources =
      p.refreshSources ++ [source] := by
  rw [UpdateProcessor.addRefreshSource_eq h]
  split_ifs <;> exact ⟨rfl, rfl⟩

theorem Logged.step (h : loop.Logged) {input : ProcessorInput Source}
    (hstep : loop.step minPriority delay input = some loop') : loop'.Logged := by
  cases hstep
  refine ⟨h.registered.handle minPriority delay input, fun source hmem => ?_⟩
  cases input with
  | add other priority =>
    obtain ⟨hstates, hsources⟩ :=
      addRefreshSource_sources h.registered minPriority other priority
    simp only [UpdateProcessor.handle, hsources, List.mem_append, List.mem_singleton] at hmem
    simp only [UpdateProcessor.handle, UpdateProcessor.events, lastServed_concat,
      UpdateProcessor.lastPacketTime, hstates, SourceStates.get_set, SourceEvent.timeFor]
    by_cases heq : source = other
    · simp [heq]
    · rw [if_neg heq, if_neg (Ne.symm heq), Option.getD_none]
      exact h.times source (hmem.resolve_right heq)
  | remove other =>
    have hstates := (UpdateProcessor.found_removeRefreshSource h.registered minPriority other).1
    obtain ⟨hold, hne⟩ := List.mem_filter.mp hmem
    simp only [UpdateProcessor.handle, UpdateProcessor.events, List.append_nil]
    rw [← h.times source hold, UpdateProcessor.lastPacketTime, hstates, SourceStates.get,
      SourceStates.erase, if_neg (by simpa using hne)]
    rfl
  | notify other code =>
    simp only [UpdateProcessor.events, List.append_nil]
    exact h.times source hmem
  | entry now =>
    have hsame := (UpdateProcessor.entry_spec h.registered delay now).1
    have hlast := UpdateProcessor.lastPacketTime_entry delay now h.registered source
    have hold : source ∈ loop.processor.refreshSources := hsame.refreshSources ▸ hmem
    simp only [UpdateProcessor.handle, UpdateProcessor.events]
    rw [hlast]
    cases (loop.processor.entry delay now).1 with
    | idle =>
      rw [List.append_nil]
      exact h.times source hold
    | filled call =>
      simp only [lastServed_concat, SourceEvent.timeFor]
      by_cases heq : source = call.source
      · simp [heq]
      · rw [if_neg heq, if_neg (Ne.symm heq), Option.getD_none]
        exact h.times source hold

theorem Logged.spaced (h : loop.Logged) (hexclusive : loop.processor.hasExclusive = false)
    {now : Int} {call : PacketCall Source}
    (hcall : (loop.processor.entry delay now).1 = .filled call) :
    lastServed loop.log call.source + delay ≤ now := by
  obtain ⟨-, called, -, hmem, hpacket⟩ := UpdateProcessor.entry_spec h.registered delay now
  obtain rfl : called = some call := by
    cases called with
    | none => exact absurd (hcall.symm.trans hpacket) (by simp)
    | some other =>
      have := hcall.symm.trans hpacket
      simp at this
      rw [this]
  rw [← h.times _ (hmem call rfl)]
  cases UpdateProcessor.entry_cases delay now h.registered hexclusive with
  | urgent call' _ hpacket' _ hspaced _ _ =>
    obtain rfl : call = call' := by simpa using hcall.symm.trans hpacket'
    omega
  | background q _ _ _ hreads _ hpacket' _ =>
    rw [hcall] at hpacket'
    cases hfind : (loop.processor.scanned delay now).find? (·.asked delay) with
    | none => simp [hfind] at hpacket'
    | some v =>
      obtain rfl : call = ⟨v.source, 0, none⟩ := by simpa [hfind] using hpacket'
      obtain ⟨-, hnow, hlast⟩ := hreads v (List.mem_of_find?_eq_some hfind)
      have hasked := List.find?_some hfind
      rw [Visit.asked, decide_eq_true_iff, hnow, hlast] at hasked
      simp only
      omega

/-- The idle packet is sent exactly if no source can be asked. -/
theorem Logged.idle (h : loop.Logged) (hexclusive : loop.processor.hasExclusive = false)
    (hfew : loop.processor.refreshSources.length ≤ 2 ^ 15) (now : Int) :
    (loop.processor.entry delay now).1 = .idle ↔
      (∀ b ∈ loop.processor.priorityUpdates.head?, b.source ∉ loop.processor.refreshSources ∨
        now - delay < lastServed loop.log b.source) ∧
      ∀ source ∈ loop.processor.refreshSources, now - delay ≤ lastServed loop.log source := by
  have hwaits : UpdateProcessor.UrgentWaits delay now loop.processor ↔
      ∀ b ∈ loop.processor.priorityUpdates.head?, b.source ∉ loop.processor.refreshSources ∨
        now - delay < lastServed loop.log b.source := by
    refine forall₂_congr fun b _ => ?_
    by_cases hmem : b.source ∈ loop.processor.refreshSources
    · rw [h.times _ hmem]
    · simp [hmem]
  rw [← hwaits]
  cases UpdateProcessor.entry_cases delay now h.registered hexclusive with
  | urgent call hnot hpacket _ _ _ _ =>
    rw [hpacket]
    exact iff_of_false (by simp) fun hboth => hnot hboth.1
  | background q hyes hsources _ hreads hvisits hpacket _ =>
    have hidle : (loop.processor.entry delay now).1 = .idle ↔
        ∀ v ∈ loop.processor.scanned delay now, v.asked delay = false := by
      rw [hpacket]
      cases hfind : (loop.processor.scanned delay now).find? (·.asked delay) with
      | none =>
        refine iff_of_true rfl fun v hv => ?_
        simpa using List.find?_eq_none.mp hfind v hv
      | some v =>
        refine iff_of_false (by simp) fun hnone => ?_
        have := hnone v (List.mem_of_find?_eq_some hfind)
        rw [List.find?_some hfind] at this
        exact Bool.false_ne_true this.symm
    rw [hidle]
    have hasked : ∀ v ∈ loop.processor.scanned delay now,
        (v.asked delay = false ↔ now - delay ≤ lastServed loop.log v.source) := by
      intro v hv
      obtain ⟨hsource, hnow, hlast⟩ := hreads v hv
      rw [Visit.asked, decide_eq_false_iff_not, hnow, hlast,
        h.times _ (List.mem_of_getElem? hsource), Int.not_lt]
    constructor
    · intro hnone
      refine ⟨hyes, fun source hmem => ?_⟩
      rw [hvisits] at hnone hasked
      obtain ⟨v, hv, rfl⟩ := UpdateProcessor.exists_scan delay now (hsources ▸ hfew) hnone
        (hsources ▸ hmem)
      exact (hasked v hv).mp (hnone v hv)
    · rintro ⟨-, hall⟩ v hv
      exact (hasked v hv).mpr (hall _ (List.mem_of_getElem? (hreads v hv).1))

/-- The packets that serve no urgent update are those of the background scan, which reads when its
sources were served. -/
theorem Logged.background (h : loop.Logged) (hexclusive : loop.processor.hasExclusive = false)
    (now : Int) :
    (∀ call : PacketCall Source, (loop.processor.entry delay now).1 = .filled call ∧
      call.serves = none ↔ ∃ v ∈ loop.processor.scanned delay now,
        v.asked delay = true ∧ call = ⟨v.source, 0, none⟩) ∧
    ∀ v ∈ loop.processor.scanned delay now,
      v.now = now ∧ v.last = lastServed loop.log v.source := by
  cases UpdateProcessor.entry_cases delay now h.registered hexclusive with
  | urgent call' _ hpacket hserves _ hvisits _ =>
    rw [hpacket, hvisits]
    refine ⟨fun call => iff_of_false ?_ (by simp), by simp⟩
    rintro ⟨heq, hnone⟩
    obtain rfl : call' = call := by simpa using heq
    exact hserves hnone
  | background q _ _ _ hreads hvisits hpacket _ =>
    refine ⟨fun call => ?_, fun v hv => ?_⟩
    · constructor
      · rintro ⟨hcall, -⟩
        rw [hcall] at hpacket
        cases hfind : (loop.processor.scanned delay now).find? (·.asked delay) with
        | none => simp [hfind] at hpacket
        | some v =>
          exact ⟨v, List.mem_of_find?_eq_some hfind, List.find?_some hfind,
            by simpa [hfind] using hpacket⟩
      · rintro ⟨v, hv, hasked, rfl⟩
        rw [hvisits] at hv hpacket
        rw [UpdateProcessor.find_scan delay now hv hasked] at hpacket
        exact ⟨hpacket, rfl⟩
    · obtain ⟨hsource, hnow, hlast⟩ := hreads v hv
      exact ⟨hnow, hlast.trans (h.times _ (List.mem_of_getElem? hsource))⟩

theorem logged_run {history : List (ProcessorInput Source)}
    (hrun : Trace.run (step minPriority delay) start history = some loop) : loop.Logged :=
  Trace.invariant_of_step (I := fun _ (loop : SpacedLoop Source) => loop.Logged) logged_start
    (fun _ _ _ _ hlogged hstep => hlogged.step hstep) hrun

/-- After any calls, while there is no exclusive source: a source gets a packet only if it was last
served `delay` ago; with at most 32768 places, the idle packet is sent exactly if no source can be
asked, and during further calls the background scan is fair. -/
theorem packets_spaced (minPriority : Nat) (delay : Int) (history : List (ProcessorInput Source))
    (hrun : Trace.run (step minPriority delay) start history = some loop)
    (hexclusive : loop.processor.hasExclusive = false) :
    (∀ now call, (loop.processor.entry delay now).1 = .filled call →
      lastServed loop.log call.source + delay ≤ now) ∧
    (loop.processor.refreshSources.length ≤ 2 ^ 15 →
      (∀ now, (loop.processor.entry delay now).1 = .idle ↔
        (∀ b ∈ loop.processor.priorityUpdates.head?, b.source ∉ loop.processor.refreshSources ∨
          now - delay < lastServed loop.log b.source) ∧
        ∀ source ∈ loop.processor.refreshSources, now - delay ≤ lastServed loop.log source) ∧
      (∀ now, (∀ call : PacketCall Source, (loop.processor.entry delay now).1 = .filled call ∧
          call.serves = none ↔ ∃ v ∈ loop.processor.scanned delay now,
            v.asked delay = true ∧ call = ⟨v.source, 0, none⟩) ∧
        ∀ v ∈ loop.processor.scanned delay now,
          v.now = now ∧ v.last = lastServed loop.log v.source) ∧
      ∀ calls : List (ProcessorInput Source), (∀ input ∈ calls, UpdateProcessor.Polls input) →
        UpdateProcessor.Fair delay loop.processor
          (UpdateProcessor.visits minPriority delay loop.processor calls)) := by
  have hlogged := logged_run hrun
  refine ⟨fun now call hcall => hlogged.spaced hexclusive hcall, fun hfew => ⟨?_, ?_, ?_⟩⟩
  · exact hlogged.idle hexclusive hfew
  · exact hlogged.background hexclusive
  · intro calls hpolls
    exact UpdateProcessor.fair_visits minPriority delay hlogged.registered hexclusive hfew hpolls

end Runs

/-- Two sources, and the packet of the first one. -/
def twoSources : List (ProcessorInput Nat) := [.add 1 0, .add 2 0, .entry 200]

theorem twoSources_spaced : ∃ loop, Trace.run (step 1000 100) start twoSources = some loop ∧
    lastServed loop.log 2 + 100 ≤ 250 ∧
    UpdateProcessor.Fair 100 loop.processor
      (UpdateProcessor.visits 1000 100 loop.processor [.entry 250, .entry 300, .entry 350]) := by
  refine ⟨_, rfl, ?_⟩
  have hspaced := packets_spaced 1000 100 twoSources rfl (by decide)
  exact ⟨hspaced.1 250 ⟨2, 0, none⟩ (by decide),
    (hspaced.2 (by decide)).2.2 [.entry 250, .entry 300, .entry 350] (by decide)⟩

/-! ### More places than the index counts -/

/-- The sources 0, 1, ... with `count` places, the first `done` of which were served. -/
structure ManyServed (count done : Nat) (p : UpdateProcessor Nat) : Prop where
  registered : p.Registered
  sources : p.refreshSources = List.range count
  index : p.nextRefreshIndex = done % 2 ^ 15
  exclusive : p.exclusiveIndex = noExclusive
  queue : p.priorityUpdates = []
  times : ∀ source < count, p.lastPacketTime source = if source < done then 200 else 0

theorem ManyServed.add {count : Nat} {p : UpdateProcessor Nat} (h : ManyServed count 0 p) :
    ManyServed (count + 1) 0 (p.addRefreshSource 1000 count 0).2 := by
  have hadd := UpdateProcessor.addRefreshSource_eq h.registered 1000 count 0
  obtain ⟨hstates, hsources⟩ := addRefreshSource_sources h.registered 1000 count 0
  refine ⟨h.registered.addRefreshSource 1000 count 0, ?_, ?_, ?_, ?_, fun source hlt => ?_⟩
  · rw [hsources, h.sources, List.range_succ]
  · rw [hadd]
    exact h.index
  · rw [hadd]
    exact h.exclusive
  · rw [hadd]
    exact h.queue
  · rw [UpdateProcessor.lastPacketTime, hstates, SourceStates.get_set]
    split
    · rfl
    · exact h.times source (by omega)

theorem ManyServed.entry {count done : Nat} {p : UpdateProcessor Nat} (h : ManyServed count done p)
    (hdone : done < count) (hfew : done < 2 ^ 15) :
    ManyServed count (done + 1) (p.entry 100 200).2 := by
  have hlength : p.refreshSources.length = count := by rw [h.sources, List.length_range]
  have hindex : p.refreshIndex = done := by
    rw [UpdateProcessor.refreshIndex, h.index, Nat.mod_eq_of_lt hfew, if_neg (by omega)]
  have hsource : p.refreshSources[p.refreshIndex]? = some done := by
    rw [hindex, h.sources, List.getElem?_range hdone]
  have hlast : p.lastPacketTime done = 0 := by
    rw [h.times done hdone, if_neg (Nat.lt_irrefl done)]
  have hhas : p.hasRefreshSource = true :=
    h.registered.nonempty.mpr (List.ne_nil_of_length_pos (by omega))
  have hcall : p.nextCall 100 200 =
      (some ⟨done, 0, none⟩, { p with nextRefreshIndex := (done + 1) % 2 ^ 15 }) := by
    obtain ⟨tries, htries⟩ : ∃ tries, p.refreshSources.length = tries + 1 :=
      ⟨count - 1, by omega⟩
    have hurgent : p.nextUrgent 100 200 = (none, p) := by
      simp [UpdateProcessor.nextUrgent, UpdateProcessor.hasExclusive, h.exclusive, h.queue]
    rw [UpdateProcessor.nextCall, hurgent]
    simp only
    rw [if_pos hhas, htries, UpdateProcessor.nextRefresh_succ 100 200 h.registered hsource,
      if_pos (by rw [hlast]; decide), hindex]
  have hentry : p.entry 100 200 = (.filled ⟨done, 0, none⟩,
      ({ p with nextRefreshIndex := (done + 1) % 2 ^ 15 } : UpdateProcessor Nat).stamp
        done 200) := by
    rw [UpdateProcessor.entry, hcall]
  have htimes := UpdateProcessor.lastPacketTime_entry 100 200 h.registered
  rw [hentry] at htimes
  refine ⟨h.registered.entry 100 200, ?_, ?_, ?_, ?_, fun source hlt => ?_⟩
  · rw [hentry]
    exact h.sources
  · rw [hentry]
    rfl
  · rw [hentry]
    exact h.exclusive
  · rw [hentry]
    exact h.queue
  · rw [hentry, htimes]
    simp only
    rw [h.times source hlt]
    split_ifs <;> omega

/-- The scan looks at the first 32768 places only. -/
theorem ManyServed.idle {count : Nat} {p : UpdateProcessor Nat} (h : ManyServed count (2 ^ 15) p)
    (hmany : 2 ^ 15 ≤ count) : (p.entry 100 200).1 = .idle := by
  have hexclusive : p.hasExclusive = false := by
    simp [UpdateProcessor.hasExclusive, h.exclusive]
  cases UpdateProcessor.entry_cases 100 200 h.registered hexclusive with
  | urgent call hnot =>
    refine absurd ?_ hnot
    simp [UpdateProcessor.UrgentWaits, h.queue]
  | background q _ hsources hindex hreads hvisits hpacket _ =>
    have hplace : q.refreshIndex < 2 ^ 15 := by
      rw [hindex, UpdateProcessor.refreshIndex, h.index]
      split <;> decide
    have hnone : (p.scanned 100 200).find? (·.asked 100) = none := by
      refine List.find?_eq_none.mpr fun v hv => ?_
      obtain ⟨hsource, hnow, hlast⟩ := hreads v hv
      rw [hvisits] at hv
      have hlt := UpdateProcessor.scan_index_lt 100 200
        (by rw [hsources, h.sources, List.length_range]; exact hmany) hplace _ v hv
      rw [h.sources, List.getElem?_range (by omega)] at hsource
      have hsame : v.source = v.index := (Option.some.inj hsource).symm
      rw [Visit.asked, hnow, hlast, hsame, h.times _ (by omega), if_pos hlt]
      decide
    rw [hpacket, hnone]
    rfl

/-- All sources are added, and then there are polls. -/
theorem many_run (count done : Nat) (hdone : done ≤ count) (hfew : done ≤ 2 ^ 15) :
    ∃ loop, Trace.run (step 1000 100) start
      ((List.range count).map (ProcessorInput.add · 0) ++
        List.replicate done (.entry 200)) = some loop ∧
      ManyServed count done loop.processor := by
  induction done with
  | zero =>
    rw [List.replicate_zero, List.append_nil]
    clear hdone hfew
    induction count with
    | zero =>
      exact ⟨start, rfl, UpdateProcessor.registered_start, rfl, rfl, rfl, rfl,
        fun _ h => absurd h (Nat.not_lt_zero _)⟩
    | succ count ih =>
      obtain ⟨loop, hrun, hmany⟩ := ih
      rw [List.range_succ, List.map_append, List.map_singleton]
      exact ⟨_, Trace.run_concat_eq_some.mpr ⟨loop, hrun, rfl⟩, hmany.add⟩
  | succ done ih =>
    obtain ⟨loop, hrun, hmany⟩ := ih (by omega) (by omega)
    rw [List.replicate_succ', ← List.append_assoc]
    exact ⟨_, Trace.run_concat_eq_some.mpr ⟨loop, hrun, rfl⟩, hmany.entry (by omega) (by omega)⟩

/-- A source that is removed and registered again gets a packet one nanosecond after its last one;
and with 32769 places the idle packet is sent although the last source is due. -/
theorem spacing_fails :
    (∃ loop : SpacedLoop Nat, Trace.run (step 1000 100) start
        [.add 1 0, .entry 200, .remove 1, .add 1 0] = some loop ∧
      loop.processor.hasExclusive = false ∧ SourceEvent.sent 1 200 ∈ loop.log ∧
      (loop.processor.entry 100 201).1 = .filled ⟨1, 0, none⟩) ∧
    ∃ history, ∃ loop : SpacedLoop Nat, Trace.run (step 1000 100) start history = some loop ∧
      loop.processor.hasExclusive = false ∧ loop.processor.priorityUpdates = [] ∧
      2 ^ 15 ∈ loop.processor.refreshSources ∧
      loop.processor.lastPacketTime (2 ^ 15) < 200 - 100 ∧
      (loop.processor.entry 100 200).1 = .idle := by
  refine ⟨⟨_, rfl, by decide, by decide, by decide⟩, ?_⟩
  obtain ⟨loop, hrun, hmany⟩ := many_run (2 ^ 15 + 1) (2 ^ 15) (by omega) (by omega)
  refine ⟨_, loop, hrun, ?_, hmany.queue, ?_, ?_, hmany.idle (by omega)⟩
  · simp [UpdateProcessor.hasExclusive, hmany.exclusive]
  · rw [hmany.sources, List.mem_range]
    omega
  · rw [hmany.times _ (by omega), if_neg (by omega)]
    decide

end SpacedLoop

end OpenmrnCue.CommandStation
