import Mathlib.Data.List.Basic
import OpenmrnCue.Library.Trace

/-! A debounced occupancy.  A raw detector is sampled now and then, one timer counts the time since
its last edge, and the occupancy follows the detector when the timer has run out.  A minimum
occupied time starts the same timer when the occupancy begins. -/

namespace OpenmrnCue.Automata

/-- The time without an edge after which the track becomes busy. -/
def kTimeTakenToGoBusy : Nat := 2

/-- The time without an edge after which the track becomes free. -/
def kTimeTakenToGoFree : Nat := 3

/-- The timer, the last value of the detector (1 is free), and the occupancy. -/
structure Debounce where
  timer : UInt8
  last : Bool
  occupied : Bool
deriving DecidableEq, Repr

/-- What a run reads: the detector (1 is free), the routes, and whether there is a route out. -/
structure Sample where
  raw : Bool
  routeAb : Bool
  routeBa : Bool
  outputRoute : Bool
deriving DecidableEq, Repr

/-- What happens to the occupancy: the timer ticks, or the detector is sampled. -/
inductive DebounceEvent where
  | tick
  | sample (i : Sample)
deriving DecidableEq, Repr

namespace Debounce

/-- The detector becomes busy.  If a route is set, then the occupancy does not wait. -/
def busyEdge (m : Nat) (i : Sample) (d : Debounce) : Debounce :=
  if i.routeAb || i.routeBa then
    if m = 0 then { d with timer := 0, last := false }
    else ⟨UInt8.ofNat m, false, true⟩
  else { d with timer := UInt8.ofNat kTimeTakenToGoBusy, last := false }

/-- The detector may be seen to become free: when the timer has run out, or without a minimum time
when there is a route out for the route in. -/
def mayFree (m : Nat) (i : Sample) (d : Debounce) : Bool :=
  if m = 0 then !i.routeAb || i.outputRoute else d.timer == 0

/-- What an edge of the detector does. -/
def edge (m : Nat) (i : Sample) (d : Debounce) : Debounce :=
  if !i.raw && d.last then d.busyEdge m i
  else if i.raw && !d.last && d.mayFree m i then
    { d with timer := UInt8.ofNat kTimeTakenToGoFree, last := true }
  else d

/-- The occupancy begins, for the minimum time. -/
def arise (m : Nat) (d : Debounce) : Debounce :=
  if d.timer = 0 ∧ d.last = false ∧ d.occupied = false ∧ m ≠ 0 then
    ⟨UInt8.ofNat m, false, true⟩
  else d

/-- When the timer has run out, the occupancy is what the detector was. -/
def settle (d : Debounce) : Debounce := if d.timer = 0 then { d with occupied := !d.last } else d

/-- A sample of the detector. -/
def sample (m : Nat) (i : Sample) (d : Debounce) : Debounce := ((d.edge m i).arise m).settle

def tick (d : Debounce) : Debounce := { d with timer := if d.timer = 0 then 0 else d.timer - 1 }

def step (m : Nat) (d : Debounce) : DebounceEvent → Option Debounce
  | .tick => some d.tick
  | .sample i => some (d.sample m i)

/-- The timer ticks in a history. -/
def ticks (history : List DebounceEvent) : Nat := history.count .tick

@[simp] theorem ticks_concat_tick (history : List DebounceEvent) :
    ticks (history ++ [.tick]) = ticks history + 1 := by
  simp [ticks]

@[simp] theorem ticks_concat_sample (history : List DebounceEvent) (i : Sample) :
    ticks (history ++ [.sample i]) = ticks history := by
  simp [ticks]

section Sample

variable {m : Nat} {i : Sample} {d d' : Debounce}

theorem tick_timer (d : Debounce) : d.tick.timer.toNat = d.timer.toNat - 1 := by
  rw [tick]
  split
  · next h => simp [h]
  · next h =>
    have hpos : 0 < d.timer.toNat := Nat.pos_of_ne_zero fun hz => h (UInt8.toNat_inj.mp hz)
    have hone : (1 : UInt8) ≤ d.timer := UInt8.le_iff_toNat_le.mpr hpos
    simp [UInt8.toNat_sub_of_le _ _ hone]

/-- While the timer runs, only the detector counts. -/
theorem settle_arise_of_running (h : d.timer ≠ 0) : (d.arise m).settle = d := by
  rw [arise, if_neg fun hd => h hd.1, settle, if_neg h]

theorem settle_arise_of_last (h : d.last = true) :
    (d.arise m).settle = if d.timer = 0 then { d with occupied := false } else d := by
  rw [arise, if_neg (by simp [h]), settle, h]
  rfl

theorem settle_arise_of_done (htimer : d.timer = 0) (h : d.last = false) :
    (d.arise m).settle =
      if m ≠ 0 ∧ d.occupied = false then ⟨UInt8.ofNat m, false, true⟩
      else { d with occupied := true } := by
  rw [arise]
  by_cases hm : m ≠ 0 ∧ d.occupied = false
  · rw [if_pos ⟨htimer, h, hm.2, hm.1⟩, if_pos hm, settle]
    split <;> rfl
  · rw [if_neg fun hd => hm ⟨hd.2.2.2, hd.2.2.1⟩, if_neg hm, settle, if_pos htimer, h]
    rfl

/-- The detector becomes busy: at once with a route, or after a delay. -/
theorem sample_busyEdge (hraw : i.raw = false) (h : d.last = true) :
    d.sample m i = if i.routeAb || i.routeBa then ⟨UInt8.ofNat m, false, true⟩
      else { d with timer := UInt8.ofNat kTimeTakenToGoBusy, last := false } := by
  have hedge : d.edge m i = d.busyEdge m i := by simp [edge, hraw, h]
  rw [sample, hedge, busyEdge]
  split
  · split
    · next hm =>
      subst hm
      rw [settle_arise_of_done rfl rfl]
      rfl
    · rw [arise, if_neg (by simp), settle]
      split <;> rfl
  · exact settle_arise_of_running (by simp [kTimeTakenToGoBusy])

/-- The detector becomes free. -/
theorem sample_freeEdge (hraw : i.raw = true) (h : d.last = false) (hmay : d.mayFree m i = true) :
    d.sample m i = { d with timer := UInt8.ofNat kTimeTakenToGoFree, last := true } := by
  have hedge : d.edge m i = { d with timer := UInt8.ofNat kTimeTakenToGoFree, last := true } := by
    simp [edge, hraw, h, hmay]
  rw [sample, hedge, settle_arise_of_running (by simp [kTimeTakenToGoFree])]

/-- The detector stays free. -/
theorem sample_free (hraw : i.raw = true) (h : d.last = true) :
    d.sample m i = if d.timer = 0 then { d with occupied := false } else d := by
  have hedge : d.edge m i = d := by simp [edge, hraw, h]
  rw [sample, hedge, settle_arise_of_last h]

/-- The detector stays busy, or it is not seen to become free. -/
theorem sample_busy (h : d.last = false) (hraw : i.raw = true → d.mayFree m i = false) :
    d.sample m i =
      if d.timer = 0 then
        if m ≠ 0 ∧ d.occupied = false then ⟨UInt8.ofNat m, false, true⟩
        else { d with occupied := true }
      else d := by
  have hedge : d.edge m i = d := by
    cases hr : i.raw with
    | false => simp [edge, hr, h]
    | true => simp [edge, hr, h, hraw hr]
  rw [sample, hedge]
  split
  · next htimer => exact settle_arise_of_done htimer h
  · next htimer => exact settle_arise_of_running htimer

/-- What a sample can find. -/
theorem sample_kinds (m : Nat) (i : Sample) (d : Debounce) :
    (i.raw = false ∧ d.last = true) ∨ (i.raw = true ∧ d.last = false ∧ d.mayFree m i = true) ∨
      (i.raw = true ∧ d.last = true) ∨
      (d.last = false ∧ (i.raw = true → d.mayFree m i = false)) := by
  cases i.raw <;> cases d.last <;> cases d.mayFree m i <;> simp

/-- The last value is free after a sample that reads free: the timer goes on, or it starts. -/
theorem sample_last (h : (d.sample m i).last = true) : i.raw = true ∧
    (d.last = true ∧ (d.sample m i).timer = d.timer ∨
      d.last = false ∧ (d.sample m i).timer.toNat = kTimeTakenToGoFree) := by
  rcases sample_kinds m i d with ⟨hraw, hlast⟩ | ⟨hraw, hlast, hmay⟩ | ⟨hraw, hlast⟩ | ⟨hlast, hmay⟩
  · rw [sample_busyEdge hraw hlast] at h
    split at h <;> cases h
  · rw [sample_freeEdge hraw hlast hmay]
    exact ⟨hraw, .inr ⟨hlast, rfl⟩⟩
  · rw [sample_free hraw hlast]
    exact ⟨hraw, .inl ⟨hlast, by split <;> rfl⟩⟩
  · rw [sample_busy hlast hmay] at h
    split at h
    · split at h
      · cases h
      · cases hlast.symm.trans h
    · cases hlast.symm.trans h

/-- The occupancy ends when the detector has been free until the timer has run out. -/
theorem sample_ends (h : d.occupied = true) (h' : (d.sample m i).occupied = false) :
    i.raw = true ∧ d.last = true ∧ d.timer = 0 := by
  rcases sample_kinds m i d with ⟨hraw, hlast⟩ | ⟨hraw, hlast, hmay⟩ | ⟨hraw, hlast⟩ | ⟨hlast, hmay⟩
  · rw [sample_busyEdge hraw hlast] at h'
    split at h'
    · cases h'
    · cases h.symm.trans h'
  · rw [sample_freeEdge hraw hlast hmay] at h'
    cases h.symm.trans h'
  · rw [sample_free hraw hlast] at h'
    split at h'
    · next htimer => exact ⟨hraw, hlast, htimer⟩
    · cases h.symm.trans h'
  · rw [sample_busy hlast hmay] at h'
    split at h'
    · split at h'
      · cases h'
      · cases h'
    · cases h.symm.trans h'

/-- With a minimum time, the occupancy begins with the timer. -/
theorem sample_begins (hm : m ≠ 0) (h : d.occupied = false) (h' : (d.sample m i).occupied = true) :
    (d.sample m i).last = false ∧ (d.sample m i).timer = UInt8.ofNat m := by
  rcases sample_kinds m i d with ⟨hraw, hlast⟩ | ⟨hraw, hlast, hmay⟩ | ⟨hraw, hlast⟩ | ⟨hlast, hmay⟩
  · rw [sample_busyEdge hraw hlast] at h' ⊢
    split at h'
    · next hroute => simp [hroute]
    · cases h.symm.trans h'
  · rw [sample_freeEdge hraw hlast hmay] at h'
    cases h.symm.trans h'
  · rw [sample_free hraw hlast] at h'
    split at h'
    · cases h'
    · cases h.symm.trans h'
  · rw [sample_busy hlast hmay] at h' ⊢
    split at h'
    · next htimer => simp [htimer, hm, h]
    · cases h.symm.trans h'

/-- Without a minimum time, a route in holds the occupancy until there is a route out. -/
theorem sample_held (hm : m = 0) (h : d.last = false) (hab : i.routeAb = true)
    (hout : i.outputRoute = false) : (d.sample m i).last = false ∧
      (d.occupied = true → (d.sample m i).occupied = true) := by
  have hmay : i.raw = true → d.mayFree m i = false := by simp [mayFree, hm, hab, hout]
  rw [sample_busy h hmay]
  split
  · split
    · exact ⟨rfl, fun _ => rfl⟩
    · exact ⟨h, fun _ => rfl⟩
  · exact ⟨h, id⟩

end Sample

/-! ### Histories -/

section Histories

variable {m : Nat} {d d' : Debounce} {history : List DebounceEvent}

/-- Only the delay for becoming free runs while the last value is free. -/
def Timed (d : Debounce) : Prop := d.last = true → d.timer.toNat ≤ kTimeTakenToGoFree

theorem Timed.step {e : DebounceEvent} (h : d.Timed) (hstep : step m d e = some d') : d'.Timed := by
  cases e with
  | tick =>
    cases hstep
    intro hlast
    have hle := h hlast
    rw [tick_timer]
    omega
  | sample i =>
    cases hstep
    intro hlast
    obtain ⟨-, ⟨hold, heq⟩ | ⟨-, heq⟩⟩ := sample_last hlast
    · rw [heq]
      exact h hold
    · exact Nat.le_of_eq heq

/-- While the last value is free, the detector has been free for as long as the timer has run. -/
theorem free_since (hstart : d.last = false) (hrun : Trace.run (step m) d history = some d')
    (h : d'.last = true) : ∃ past since, history = past ++ since ∧
      kTimeTakenToGoFree ≤ ticks since + d'.timer.toNat ∧
      ∀ i, .sample i ∈ since → i.raw = true := by
  refine Trace.invariant_of_step (I := fun history d => d.last = true → ∃ past since,
    history = past ++ since ∧ kTimeTakenToGoFree ≤ ticks since + d.timer.toNat ∧
      ∀ i, .sample i ∈ since → i.raw = true) ?_ ?_ hrun h
  · intro hlast
    cases hstart.symm.trans hlast
  intro history e d d' ih hstep hlast
  cases e with
  | tick =>
    cases hstep
    obtain ⟨past, since, rfl, hticks, hfree⟩ := ih hlast
    refine ⟨past, since ++ [.tick], by simp, ?_, fun i hi => hfree i (by simpa using hi)⟩
    rw [ticks_concat_tick, tick_timer]
    omega
  | sample i =>
    cases hstep
    obtain ⟨hraw, ⟨hold, heq⟩ | ⟨-, heq⟩⟩ := sample_last hlast
    · obtain ⟨past, since, rfl, hticks, hfree⟩ := ih hold
      refine ⟨past, since ++ [.sample i], by simp, ?_, fun j hj => ?_⟩
      · rwa [ticks_concat_sample, heq]
      · rcases List.mem_append.mp hj with hj | hj
        · exact hfree j hj
        · cases List.mem_singleton.mp hj
          exact hraw
    · exact ⟨history ++ [.sample i], [], by simp, by omega, by simp⟩

/-- The least number of ticks until the occupancy can end, with a minimum time. -/
def delay (d : Debounce) : Nat :=
  if d.last then d.timer.toNat else d.timer.toNat + kTimeTakenToGoFree

theorem delay_tick (d : Debounce) : d.delay ≤ d.tick.delay + 1 := by
  have htimer := d.tick_timer
  have hlast : d.tick.last = d.last := rfl
  rw [delay, delay, htimer, hlast]
  split <;> omega

/-- A sample does not shorten the delay, except to that of a new occupancy. -/
theorem delay_sample (hm : m ≠ 0) (hle : m ≤ 30) (h : d.Timed) (i : Sample) :
    min d.delay (m + kTimeTakenToGoFree) ≤ (d.sample m i).delay := by
  have hbegin : m + kTimeTakenToGoFree = (⟨UInt8.ofNat m, false, true⟩ : Debounce).delay := by
    simp only [delay, UInt8.toNat_ofNat']
    rw [Nat.mod_eq_of_lt (by omega)]
    rfl
  rcases sample_kinds m i d with ⟨hraw, hlast⟩ | ⟨hraw, hlast, hmay⟩ | ⟨hraw, hlast⟩ | ⟨hlast, hmay⟩
  · rw [sample_busyEdge hraw hlast]
    split
    · exact hbegin ▸ Nat.min_le_right _ _
    · refine Nat.le_trans (Nat.min_le_left _ _) ?_
      have htimer := h hlast
      simp only [delay, hlast, kTimeTakenToGoFree, kTimeTakenToGoBusy] at htimer ⊢
      exact Nat.le_trans htimer (by simp)
  · rw [sample_freeEdge hraw hlast hmay]
    have htimer : d.timer = 0 := by simpa [mayFree, hm] using hmay
    refine Nat.le_trans (Nat.min_le_left _ _) ?_
    simp [delay, hlast, htimer, kTimeTakenToGoFree]
  · rw [sample_free hraw hlast]
    refine Nat.le_trans (Nat.min_le_left _ _) (Nat.le_of_eq ?_)
    split <;> rfl
  · rw [sample_busy hlast hmay]
    split
    · split
      · exact hbegin ▸ Nat.min_le_right _ _
      · exact Nat.min_le_left _ _
    · exact Nat.min_le_left _ _

/-- With a minimum time, the delay goes down by the ticks only. -/
theorem delay_run (hm : m ≠ 0) (hle : m ≤ 30) (htimed : d.Timed)
    (hdelay : m + kTimeTakenToGoFree ≤ d.delay) (hrun : Trace.run (step m) d history = some d') :
    m + kTimeTakenToGoFree ≤ ticks history + d'.delay := by
  refine (Trace.invariant_of_step (I := fun history d => d.Timed ∧
    m + kTimeTakenToGoFree ≤ ticks history + d.delay) ⟨htimed, by simpa [ticks] using hdelay⟩ ?_
    hrun).2
  rintro history e d d' ⟨htimed, hdelay⟩ hstep
  refine ⟨htimed.step hstep, ?_⟩
  cases e with
  | tick =>
    cases hstep
    have htick := d.delay_tick
    rw [ticks_concat_tick]
    omega
  | sample i =>
    cases hstep
    have hsample := delay_sample hm hle htimed i
    rw [ticks_concat_sample]
    omega

/-- Without a minimum time, the occupancy lasts while there is a route in and no route out. -/
theorem held_run (hlast : d.last = false)
    (hroutes : ∀ i, .sample i ∈ history → i.routeAb = true ∧ i.outputRoute = false)
    (hrun : Trace.run (step 0) d history = some d') :
    d'.last = false ∧ (d.occupied = true → d'.occupied = true) := by
  induction history generalizing d with
  | nil =>
    cases hrun
    exact ⟨hlast, id⟩
  | cons e history ih =>
    obtain ⟨u, hstep, hrun⟩ := Option.bind_eq_some_iff.mp (Trace.run_cons ▸ hrun)
    have hkept : u.last = false ∧ (d.occupied = true → u.occupied = true) := by
      cases e with
      | tick =>
        cases hstep
        exact ⟨hlast, id⟩
      | sample i =>
        cases hstep
        obtain ⟨hab, hout⟩ := hroutes i List.mem_cons_self
        exact sample_held rfl hlast hab hout
    obtain ⟨hlast', hocc⟩ := ih hkept.1 (fun i hi => hroutes i (List.mem_cons_of_mem _ hi)) hrun
    exact ⟨hlast', hocc ∘ hkept.2⟩

end Histories

end Debounce

end OpenmrnCue.Automata
