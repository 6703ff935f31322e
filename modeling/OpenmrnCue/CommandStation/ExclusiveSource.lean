import OpenmrnCue.CommandStation.UpdateProcessor

/-! The exclusive packet source of the packet loop.  It has the highest priority of all registered
sources, and it is replaced only by a source of a higher priority or when it is removed, unless a
removal recomputes it while a source registered later ties with it. -/

namespace OpenmrnCue.CommandStation.UpdateProcessor

variable {Source : Type} [DecidableEq Source]

/-- One call on the processor.  A source is added only while it is not registered, and fewer than
2047 sources are ever registered. -/
def exclusiveStep (minPriority : Nat) (delay : Int) (p : UpdateProcessor Source)
    (input : ProcessorInput Source) : Option (UpdateProcessor Source) :=
  match input with
  | .add source _ =>
    if source ∉ p.refreshSources ∧ p.refreshSources.length + 1 < 2047 then
      some (p.handle minPriority delay input).2
    else none
  | _ => some (p.handle minPriority delay input).2

/-- There is an exclusive source exactly if a registered source has an exclusive priority, and no
registered source has a higher priority than the exclusive source. -/
def ExclusiveMaximal (minPriority : Nat) (p : UpdateProcessor Source) : Prop :=
  (p.hasExclusive = true ↔ ∃ source ∈ p.refreshSources, minPriority ≤ p.priority source) ∧
  (p.hasExclusive = true ↔ ∃ x, p.exclusive = some x) ∧
  ∀ x, p.exclusive = some x → ∀ source ∈ p.refreshSources, p.priority source ≤ p.priority x

/-- A call takes the place of the exclusive source only if it removes that source or adds one of a
higher priority, and an added source learns whether it will be asked for packets. -/
def ExclusiveStable (minPriority : Nat) (p : UpdateProcessor Source)
    (input : ProcessorInput Source) (p' : UpdateProcessor Source) : Prop :=
  (∀ x, p.exclusive = some x → p'.exclusive ≠ some x →
    input = .remove x ∨ ∃ source priority, input = .add source priority ∧ p.priority x < priority) ∧
  ∀ source priority, input = .add source priority →
    ((p.addRefreshSource minPriority source priority).1 = true ↔
      p'.exclusive = some source ∨ p'.exclusive = none)

/-- The call removes a source other than the exclusive one while a third source, registered after
the exclusive one, has the same priority as the exclusive one. -/
def RemovesBeforeTie (p : UpdateProcessor Source) (input : ProcessorInput Source) : Prop :=
  ∃ source x, input = .remove source ∧ p.exclusive = some x ∧ source ≠ x ∧
    ∃ y ∈ p.refreshSources.drop (p.exclusiveIndex + 1), y ≠ source ∧ p.priority y = p.priority x

/-- The invariant of the runs: the sources are distinct and few, and the exclusive one is the one it
should be. -/
structure Exclusive (minPriority : Nat) (p : UpdateProcessor Source) : Prop where
  registered : p.Registered
  distinct : p.refreshSources.Nodup
  few : p.refreshSources.length < 2047
  maximal : (p.exclusiveIndex = noExclusive ∧
      ∀ source ∈ p.refreshSources, p.priority source < minPriority) ∨
    ∃ front x back, p.refreshSources = front ++ x :: back ∧ p.exclusiveIndex = front.length ∧
      minPriority ≤ p.priority x ∧
      ∀ source ∈ p.refreshSources, p.priority source ≤ p.priority x

section
variable {minPriority : Nat} {p : UpdateProcessor Source}

omit [DecidableEq Source] in
/-- An index that fits in the vector is not the mark for no exclusive source. -/
theorem exclusive_of_split {front back : List Source} {x : Source}
    (hsplit : p.refreshSources = front ++ x :: back) (hindex : p.exclusiveIndex = front.length)
    (hfew : p.refreshSources.length < 2047) : p.hasExclusive = true ∧ p.exclusive = some x := by
  have hlt : front.length < 2047 := by
    rw [hsplit] at hfew
    simp at hfew
    omega
  have hhas : p.hasExclusive = true := by
    simp only [hasExclusive, hindex, noExclusive, bne_iff_ne]
    omega
  refine ⟨hhas, ?_⟩
  simp [exclusive, hhas, hsplit, hindex]

omit [DecidableEq Source] in
theorem exclusive_of_noExclusive (hindex : p.exclusiveIndex = noExclusive) :
    p.hasExclusive = false ∧ p.exclusive = none := by
  have hhas : p.hasExclusive = false := by simp [hasExclusive, hindex]
  exact ⟨hhas, by simp [exclusive, hhas]⟩

omit [DecidableEq Source] in
theorem Exclusive.exclusiveMaximal (h : p.Exclusive minPriority) :
    p.ExclusiveMaximal minPriority := by
  rcases h.maximal with ⟨hindex, hbelow⟩ | ⟨front, x, back, hsplit, hindex, hmin, hhighest⟩
  · obtain ⟨hhas, hnone⟩ := exclusive_of_noExclusive hindex
    refine ⟨?_, by simp [hhas, hnone], by simp [hnone]⟩
    simp only [hhas, Bool.false_eq_true, false_iff]
    rintro ⟨source, hsource, hmin⟩
    exact absurd (hbelow source hsource) (Nat.not_lt.mpr hmin)
  · obtain ⟨hhas, hsome⟩ := exclusive_of_split hsplit hindex h.few
    refine ⟨?_, by simp [hhas, hsome], ?_⟩
    · simp only [hhas, true_iff]
      exact ⟨x, by simp [hsplit], hmin⟩
    · rintro y hy source hsource
      rw [hsome] at hy
      cases hy
      exact hhighest source hsource

omit [DecidableEq Source] in
theorem exclusive_start : Exclusive minPriority (start : UpdateProcessor Source) :=
  ⟨registered_start, List.nodup_nil, by simp [start], Or.inl ⟨rfl, by simp [start]⟩⟩

/-! Adding a source. -/

theorem priority_pushSource_self (source : Source) (priority : Nat) :
    (p.pushSource source priority).priority source = priority := by
  simp [UpdateProcessor.priority, pushSource, SourceStates.get_set]

theorem priority_pushSource {source other : Source} (hne : other ≠ source) (priority : Nat) :
    (p.pushSource source priority).priority other = p.priority other := by
  simp [UpdateProcessor.priority, pushSource, SourceStates.get_set, hne]

/-- The priorities after a new source was added are bounded if they were before. -/
theorem priority_pushSource_le {source : Source} {priority bound : Nat}
    (hnew : source ∉ p.refreshSources)
    (hbound : ∀ other ∈ p.refreshSources, p.priority other ≤ bound) (hpriority : priority ≤ bound) :
    ∀ other ∈ (p.pushSource source priority).refreshSources,
      (p.pushSource source priority).priority other ≤ bound := by
  intro other hother
  rcases List.mem_append.mp hother with hold | hlast
  · have hne : other ≠ source := fun heq => hnew (heq ▸ hold)
    rw [priority_pushSource hne]
    exact hbound other hold
  · rw [List.mem_singleton.mp hlast, priority_pushSource_self]
    exact hpriority

omit [DecidableEq Source] in
theorem nodup_append_new {sources : List Source} {source : Source} (h : sources.Nodup)
    (hnew : source ∉ sources) : (sources ++ [source]).Nodup := by
  refine List.nodup_append.mpr ⟨h, by simp, ?_⟩
  rintro other hother _ hlast rfl
  exact hnew (List.mem_singleton.mp hlast ▸ hother)

/-- The result of adding a source that becomes exclusive. -/
theorem Exclusive.promote (h : p.Exclusive minPriority) {source : Source} {priority : Nat}
    (hnew : source ∉ p.refreshSources) (hfew : p.refreshSources.length + 1 < 2047)
    (hmin : minPriority ≤ priority)
    (hbound : ∀ other ∈ p.refreshSources, p.priority other ≤ priority) :
    let p' := { p.pushSource source priority with
      exclusiveIndex := p.refreshSources.length % 2 ^ 15 }
    p'.Exclusive minPriority ∧ p'.exclusive = some source := by
  intro p'
  have hpush := h.registered.pushSource source priority
  have hindex : p'.exclusiveIndex = p.refreshSources.length :=
    Nat.mod_eq_of_lt (show p.refreshSources.length < 2 ^ 15 by omega)
  have hsplit : p'.refreshSources = p.refreshSources ++ source :: [] := rfl
  have hlength : p'.refreshSources.length = p.refreshSources.length + 1 := by simp [hsplit]
  have hself : p'.priority source = priority := priority_pushSource_self source priority
  refine ⟨⟨⟨hpush.keys, hpush.nonempty, Or.inr (by omega)⟩, ?_, by omega, Or.inr ?_⟩, ?_⟩
  · rw [hsplit]
    exact nodup_append_new h.distinct hnew
  · refine ⟨p.refreshSources, source, [], hsplit, hindex, hself ▸ hmin, ?_⟩
    rw [hself]
    exact priority_pushSource_le hnew hbound (Nat.le_refl _)
  · exact (exclusive_of_split hsplit hindex (by omega)).2

/-- The result of adding a source that does not become exclusive. -/
theorem Exclusive.pushSource (h : p.Exclusive minPriority) {source : Source} {priority : Nat}
    (hnew : source ∉ p.refreshSources) (hfew : p.refreshSources.length + 1 < 2047)
    (hlow : (p.exclusive = none ∧ priority < minPriority) ∨
      ∃ x, p.exclusive = some x ∧ priority ≤ p.priority x) :
    (p.pushSource source priority).Exclusive minPriority ∧
    (p.pushSource source priority).exclusive = p.exclusive := by
  have hlength : (p.pushSource source priority).refreshSources.length =
      p.refreshSources.length + 1 := by simp [UpdateProcessor.pushSource]
  have hdistinct : (p.pushSource source priority).refreshSources.Nodup :=
    nodup_append_new h.distinct hnew
  rcases h.maximal with ⟨hindex, hbelow⟩ | ⟨front, x, back, hsplit, hindex, hmin, hhighest⟩
  · have hnone := (exclusive_of_noExclusive hindex).2
    have hpriority : priority < minPriority := by
      rcases hlow with ⟨-, hlow⟩ | ⟨x, hx, -⟩
      · exact hlow
      · rw [hnone] at hx
        cases hx
    refine ⟨⟨h.registered.pushSource source priority, hdistinct, by omega,
      Or.inl ⟨hindex, ?_⟩⟩, ?_⟩
    · intro other hother
      have hle := priority_pushSource_le hnew (fun y hy => Nat.le_sub_one_of_lt (hbelow y hy))
        (Nat.le_sub_one_of_lt hpriority) other hother
      omega
    · rw [hnone]
      exact (exclusive_of_noExclusive (p := p.pushSource source priority) hindex).2
  · have hsome := (exclusive_of_split hsplit hindex h.few).2
    have hpriority : priority ≤ p.priority x := by
      rcases hlow with ⟨hnone, -⟩ | ⟨y, hy, hlow⟩
      · rw [hsome] at hnone
        cases hnone
      · rw [hsome] at hy
        cases hy
        exact hlow
    have hx : x ≠ source := by
      rintro rfl
      exact hnew (by simp [hsplit])
    have hsplit' : (p.pushSource source priority).refreshSources =
        front ++ x :: (back ++ [source]) := by simp [UpdateProcessor.pushSource, hsplit]
    refine ⟨⟨h.registered.pushSource source priority, hdistinct, by omega, Or.inr ?_⟩, ?_⟩
    · refine ⟨front, x, back ++ [source], hsplit', hindex, ?_, ?_⟩
      · rwa [priority_pushSource hx]
      · rw [priority_pushSource hx]
        exact priority_pushSource_le hnew hhighest hpriority
    · rw [hsome]
      exact (exclusive_of_split (p := p.pushSource source priority) hsplit' hindex (by omega)).2

theorem lastPriority_pushSource (h : p.Exclusive minPriority) {source : Source} {priority : Nat}
    (hnew : source ∉ p.refreshSources) :
    (p.pushSource source priority).lastPriority = (p.exclusive.map p.priority).getD 0 := by
  have hsame : (p.pushSource source priority).exclusive = p.exclusive := by
    rcases h.maximal with ⟨hindex, -⟩ | ⟨front, x, back, hsplit, hindex, -⟩
    · rw [(exclusive_of_noExclusive hindex).2]
      exact (exclusive_of_noExclusive (p := p.pushSource source priority) hindex).2
    · simp [exclusive, hasExclusive, UpdateProcessor.pushSource, hsplit, hindex]
  unfold lastPriority
  rw [hsame]
  cases hx : p.exclusive with
  | none => rfl
  | some x =>
    have hne : x ≠ source := fun heq => hnew (heq ▸ mem_of_exclusive hx)
    exact priority_pushSource hne priority

/-- What adding a new source does to the exclusive source, and what it returns. -/
theorem addRefreshSource_cases (hpositive : 0 < minPriority) (h : p.Exclusive minPriority)
    {source : Source} (hnew : source ∉ p.refreshSources)
    (hfew : p.refreshSources.length + 1 < 2047) (priority : Nat) :
    let result := p.addRefreshSource minPriority source priority
    result.2.Exclusive minPriority ∧
    ((result.1 = true ∧ result.2.exclusive = some source ∧
        ∀ x, p.exclusive = some x → p.priority x < priority) ∨
      (result.2.exclusive = p.exclusive ∧ (result.1 = true ↔ p.exclusive = none))) := by
  intro result
  have hresult : result = _ := addRefreshSource_eq h.registered minPriority source priority
  rw [lastPriority_pushSource h hnew] at hresult
  obtain ⟨hhas, hexists, hhighest⟩ := h.exclusiveMaximal
  cases hx : p.exclusive with
  | none =>
    have hno : p.hasExclusive = false := by
      rw [Bool.eq_false_iff]
      simp [hexists, hx]
    have hbelow : ∀ other ∈ p.refreshSources, p.priority other < minPriority := by
      intro other hother
      by_contra hmin
      rw [hno] at hhas
      exact Bool.false_ne_true (hhas.mpr ⟨other, hother, Nat.le_of_not_lt hmin⟩)
    by_cases hmin : minPriority ≤ priority
    · have hlt : 0 < priority := Nat.lt_of_lt_of_le hpositive hmin
      simp only [hmin, if_true, hx, Option.map_none, Option.getD_none, hlt] at hresult
      obtain ⟨hexclusive, hself⟩ := h.promote hnew hfew hmin fun other hother =>
        Nat.le_trans (Nat.le_of_lt (hbelow other hother)) hmin
      rw [hresult]
      exact ⟨hexclusive, Or.inl ⟨rfl, hself, by simp⟩⟩
    · simp only [hmin, if_false] at hresult
      obtain ⟨hexclusive, hsame⟩ := h.pushSource hnew hfew
        (Or.inl ⟨hx, Nat.lt_of_not_le hmin⟩)
      rw [hresult]
      exact ⟨hexclusive, Or.inr ⟨by rw [hsame, hx], by simp [hno]⟩⟩
  | some x =>
    have hyes : p.hasExclusive = true := hexists.mpr ⟨x, hx⟩
    by_cases hlast : p.priority x < priority
    · have hmin : minPriority ≤ priority := by
        obtain ⟨other, hother, hmin⟩ := hhas.mp hyes
        have hle := hhighest x hx other hother
        omega
      simp only [hmin, if_true, hx, Option.map_some, Option.getD_some, hlast] at hresult
      obtain ⟨hexclusive, hself⟩ := h.promote hnew hfew hmin fun other hother =>
        Nat.le_trans (hhighest x hx other hother) (Nat.le_of_lt hlast)
      rw [hresult]
      refine ⟨hexclusive, Or.inl ⟨rfl, hself, ?_⟩⟩
      rintro y ⟨⟩
      exact hlast
    · obtain ⟨hexclusive, hsame⟩ := h.pushSource hnew hfew
        (Or.inr ⟨x, hx, Nat.le_of_not_lt hlast⟩)
      simp only [hx, Option.map_some, Option.getD_some, hlast, if_false, hyes, Bool.not_true,
        ite_self] at hresult
      rw [hresult]
      exact ⟨hexclusive, Or.inr ⟨by rw [hsame, hx], by simp⟩⟩

/-! Removing a source. -/

omit [DecidableEq Source] in
/-- Two ways to take a list apart at an element. -/
theorem split_cases {front back front' back' : List Source} {x z : Source}
    (h : front ++ x :: back = front' ++ z :: back') :
    x ∈ back' ∨ (z = x ∧ back' = back) ∨ z ∈ back := by
  rcases List.append_eq_append_iff.mp h with ⟨middle, -, hback⟩ | ⟨middle, -, hback⟩
  · cases middle with
    | nil =>
      cases hback
      exact Or.inr (Or.inl ⟨rfl, rfl⟩)
    | cons y rest =>
      cases hback
      exact Or.inr (Or.inr (by simp))
  · cases middle with
    | nil =>
      cases hback
      exact Or.inr (Or.inl ⟨rfl, rfl⟩)
    | cons y rest =>
      cases hback
      exact Or.inl (by simp)

omit [DecidableEq Source] in
/-- What the recomputation finds is the exclusive source. -/
theorem exclusive_of_found {maxPriority maxIndex : Nat} (hregistered : p.Registered)
    (hdistinct : p.refreshSources.Nodup) (hfew : p.refreshSources.length < 2047)
    (hindex : p.exclusiveIndex = maxIndex % 2 ^ 15)
    (hfound : Found minPriority p.priority p.refreshSources maxPriority maxIndex) :
    p.Exclusive minPriority ∧
    ∀ z, p.exclusive = some z → ∃ front back, p.refreshSources = front ++ z :: back ∧
      ∀ other ∈ back, p.priority other < p.priority z := by
  cases hfound with
  | nothing hnone _ hbelow =>
    have hindex' : p.exclusiveIndex = noExclusive := by rw [hindex, hnone]; rfl
    refine ⟨⟨hregistered, hdistinct, hfew, Or.inl ⟨hindex', hbelow⟩⟩, fun z hz => ?_⟩
    rw [(exclusive_of_noExclusive hindex').2] at hz
    cases hz
  | last front x back hsplit hlength hleast hmax hhighest hafter =>
    have hlt : front.length < p.refreshSources.length := by simp [hsplit]
    have hindex' : p.exclusiveIndex = front.length := by
      rw [hindex, hlength]
      exact Nat.mod_eq_of_lt (by omega)
    have hall : ∀ other ∈ p.refreshSources, p.priority other ≤ maxPriority := fun _ hother =>
      (Found.last front x back hsplit hlength hleast hmax hhighest hafter).highest hother
    subst hmax
    refine ⟨⟨hregistered, hdistinct, hfew,
      Or.inr ⟨front, x, back, hsplit, hindex', hleast, hall⟩⟩, fun z hz => ?_⟩
    rw [(exclusive_of_split hsplit hindex' hfew).2] at hz
    cases hz
    exact ⟨front, back, hsplit, hafter⟩

theorem priority_removeRefreshSource (hregistered : p.Registered) {source other : Source}
    (hne : other ≠ source) :
    (p.removeRefreshSource minPriority source).priority other = p.priority other := by
  have hstates := (found_removeRefreshSource hregistered minPriority source).1
  simp [UpdateProcessor.priority, hstates, SourceStates.get, SourceStates.erase, hne]

theorem removeRefreshSource_spec (h : p.Exclusive minPriority) (source : Source) :
    let p' := p.removeRefreshSource minPriority source
    p'.Exclusive minPriority ∧
    ∀ z, p'.exclusive = some z → ∃ front back, p'.refreshSources = front ++ z :: back ∧
      ∀ other ∈ back, p'.priority other < p'.priority z := by
  obtain ⟨-, maxPriority, maxIndex, hindex, hfound⟩ :=
    found_removeRefreshSource h.registered minPriority source
  exact exclusive_of_found (h.registered.removeRefreshSource minPriority source)
    (h.distinct.filter _) (Nat.lt_of_le_of_lt (List.length_filter_le _ _) h.few) hindex hfound

/-- The removal of another source leaves the exclusive source in place exactly if no third source,
registered after it, has the same priority. -/
theorem exclusive_removeRefreshSource_iff (h : p.Exclusive minPriority) {source x : Source}
    (hx : p.exclusive = some x) (hne : source ≠ x) :
    (p.removeRefreshSource minPriority source).exclusive = some x ↔
      ¬ ∃ y ∈ p.refreshSources.drop (p.exclusiveIndex + 1), y ≠ source ∧
        p.priority y = p.priority x := by
  obtain ⟨hexclusive, hlast⟩ := removeRefreshSource_spec h source
  obtain ⟨-, -, hhighest⟩ := h.exclusiveMaximal
  obtain ⟨hhas', hexists', hhighest'⟩ := hexclusive.exclusiveMaximal
  have hpriority : ∀ y ≠ source, (p.removeRefreshSource minPriority source).priority y =
      p.priority y := fun y hy => priority_removeRefreshSource h.registered hy
  rcases h.maximal with ⟨hindex, -⟩ | ⟨front, x', back, hsplit, hindex, hmin, -⟩
  · rw [(exclusive_of_noExclusive hindex).2] at hx
    cases hx
  · rw [(exclusive_of_split hsplit hindex h.few).2] at hx
    cases hx
    have hdrop : p.refreshSources.drop (p.exclusiveIndex + 1) = back := by
      simp [hsplit, hindex]
    have hsources : (p.removeRefreshSource minPriority source).refreshSources =
        front.filter (· ≠ source) ++ x :: back.filter (· ≠ source) := by
      simp [removeRefreshSource, hsplit, hne.symm]
    rw [hdrop]
    -- The exclusive source `x` is still registered, so there is an exclusive source `z` again.
    obtain ⟨z, hz⟩ := hexists'.mp (hhas'.mpr ⟨x, by simp [hsources], by rwa [hpriority x hne.symm]⟩)
    obtain ⟨front', back', hsplit', hafter⟩ := hlast z hz
    have hzmem := List.mem_filter.mp (mem_of_exclusive hz)
    have hzsource : z ≠ source := by simpa using hzmem.2
    have hle := hhighest x (exclusive_of_split hsplit hindex h.few).2 z hzmem.1
    have hge := hhighest' z hz x (by simp [hsources])
    rw [hpriority z hzsource, hpriority x hne.symm] at hge
    rcases split_cases (hsources.symm.trans hsplit') with hback | ⟨heq, hback⟩ | hback
    · have hlt := hafter x hback
      rw [hpriority z hzsource, hpriority x hne.symm] at hlt
      omega
    · refine iff_of_true (heq ▸ hz) ?_
      rintro ⟨y, hy, hysource, hpriorityy⟩
      have hlt := hafter y (hback ▸ List.mem_filter.mpr ⟨hy, by simpa using hysource⟩)
      rw [hpriority y hysource, hpriority z hzsource] at hlt
      omega
    · refine iff_of_false (fun hx => ?_) (not_not.mpr ⟨z, (List.mem_filter.mp hback).1, hzsource,
        Nat.le_antisymm hle hge⟩)
      rw [hz] at hx
      cases hx
      have hnodup := hexclusive.distinct
      rw [hsources] at hnodup
      exact (List.nodup_cons.mp (List.nodup_append.mp hnodup).2.1).1 hback

omit [DecidableEq Source] in
theorem exclusive_sameSources {p' : UpdateProcessor Source} (hsame : SameSources p p') :
    p'.exclusive = p.exclusive := by
  simp [exclusive, hasExclusive, hsame.exclusiveIndex, hsame.refreshSources]

omit [DecidableEq Source] in
theorem Exclusive.of_sameSources {p' : UpdateProcessor Source} (h : p.Exclusive minPriority)
    (hsame : SameSources p p') : p'.Exclusive minPriority := by
  refine ⟨h.registered.of_sameSources hsame, hsame.refreshSources ▸ h.distinct,
    hsame.refreshSources ▸ h.few, ?_⟩
  simp only [hsame.exclusiveIndex, hsame.refreshSources, hsame.priority]
  exact h.maximal

/-- What one call preserves, and when it leaves the exclusive source as it should. -/
theorem Exclusive.step (hpositive : 0 < minPriority) {delay : Int} (h : p.Exclusive minPriority)
    {input : ProcessorInput Source} {p' : UpdateProcessor Source}
    (hstep : p.exclusiveStep minPriority delay input = some p') :
    p'.Exclusive minPriority ∧
    (ExclusiveStable minPriority p input p' ↔ ¬ RemovesBeforeTie p input) := by
  cases input with
  | add source priority =>
    simp only [exclusiveStep] at hstep
    split_ifs at hstep with hguard
    cases hstep
    obtain ⟨hexclusive, hcases⟩ :=
      addRefreshSource_cases hpositive h hguard.1 hguard.2 priority
    refine ⟨hexclusive, iff_of_true ?_ (by simp [RemovesBeforeTie])⟩
    rcases hcases with ⟨htrue, hself, hhigher⟩ | ⟨hsame, hreturn⟩
    · refine ⟨fun x hx _ => Or.inr ⟨source, priority, rfl, hhigher x hx⟩, ?_⟩
      rintro _ _ ⟨⟩
      exact iff_of_true htrue (Or.inl hself)
    · refine ⟨fun x hx hne => absurd (hsame.trans hx) hne, ?_⟩
      rintro _ _ ⟨⟩
      have hother : p.exclusive ≠ some source := fun hx => hguard.1 (mem_of_exclusive hx)
      simp only [handle]
      rw [hreturn, hsame]
      simp [hother]
  | remove source =>
    cases hstep
    refine ⟨(removeRefreshSource_spec h source).1, ?_⟩
    constructor
    · rintro ⟨hstable, -⟩ ⟨_, x, ⟨⟩, hx, hne, hy⟩
      have hchanged := mt (exclusive_removeRefreshSource_iff h hx hne).mp (not_not.mpr hy)
      rcases hstable x hx hchanged with hremove | ⟨_, _, hadd, -⟩
      · cases hremove
        exact hne rfl
      · cases hadd
    · intro hno
      refine ⟨fun x hx hchanged => ?_, by rintro _ _ ⟨⟩⟩
      by_cases hne : source = x
      · exact Or.inl (by rw [hne])
      · refine absurd ((exclusive_removeRefreshSource_iff h hx hne).mpr fun hy => ?_) hchanged
        exact hno ⟨source, x, rfl, hx, hne, hy⟩
  | notify source code =>
    cases hstep
    refine ⟨⟨⟨h.registered.keys, h.registered.nonempty, h.registered.inRange⟩, h.distinct, h.few,
      h.maximal⟩, iff_of_true ⟨fun x hx hne => absurd hx hne, by rintro _ _ ⟨⟩⟩ ?_⟩
    rintro ⟨_, _, ⟨⟩, _⟩
  | entry now =>
    cases hstep
    have hsame := (entry_spec h.registered delay now).1
    refine ⟨h.of_sameSources hsame, iff_of_true ⟨fun x hx hne => ?_, by rintro _ _ ⟨⟩⟩ ?_⟩
    · exact absurd ((exclusive_sameSources hsame).trans hx) hne
    · rintro ⟨_, _, ⟨⟩, _⟩

end

/-- Along every run of calls the exclusive source is there when it should be and has the highest
priority, and it is stable exactly if no call removes another source while a third source that was
registered after the exclusive one ties with it. -/
theorem exclusive_stable_iff {minPriority : Nat} (hpositive : 0 < minPriority) (delay : Int)
    (history : List (ProcessorInput Source)) :
    (Trace.Always (exclusiveStep minPriority delay) (fun _ p => p.ExclusiveMaximal minPriority)
        start history ∧
      Trace.EachStep (exclusiveStep minPriority delay)
        (fun _ p input p' => ExclusiveStable minPriority p input p') start history) ↔
    Trace.EachStep (exclusiveStep minPriority delay)
      (fun _ p input _ => ¬ RemovesBeforeTie p input) start history := by
  have hinvariant : ∀ past (p : UpdateProcessor Source),
      Trace.run (exclusiveStep minPriority delay) start past = some p → p.Exclusive minPriority :=
    fun past p hrun => Trace.invariant_of_step (I := fun _ p => p.Exclusive minPriority)
      exclusive_start (fun _ _ _ _ h hstep => (h.step hpositive hstep).1) hrun
  constructor
  · rintro ⟨-, hstable⟩ past input future p p' heq hrun hstep
    exact ((hinvariant past p hrun).step hpositive hstep).2.mp
      (hstable past input future p p' heq hrun hstep)
  · intro hno
    refine ⟨fun past _ p _ hrun => (hinvariant past p hrun).exclusiveMaximal, ?_⟩
    intro past input future p p' heq hrun hstep
    exact ((hinvariant past p hrun).step hpositive hstep).2.mpr
      (hno past input future p p' heq hrun hstep)

/-- Two sources of priority 100 and an ordinary one. -/
def tiedSources : List (ProcessorInput Nat) := [.add 1 100, .add 2 100, .add 3 0]

theorem exclusive_stable_tiedSources :
    (Trace.Always (exclusiveStep 100 0) (fun _ p => p.ExclusiveMaximal 100) start tiedSources ∧
      Trace.EachStep (exclusiveStep 100 0) (fun _ p input p' => ExclusiveStable 100 p input p') start
        tiedSources) ↔
    Trace.EachStep (exclusiveStep 100 0) (fun _ p input _ => ¬ RemovesBeforeTie p input) start
      tiedSources :=
  exclusive_stable_iff (by decide) 0 tiedSources

/-- The removal of the ordinary source makes the second of the two tied sources the exclusive one.
-/
theorem removal_switches_exclusive :
    ¬ Trace.EachStep (exclusiveStep 100 0)
      (fun _ p input p' => ExclusiveStable 100 p input p') start (tiedSources ++ [.remove 3]) := by
  intro h
  have hbefore : (Trace.run (exclusiveStep 100 0) start tiedSources).map exclusive =
      some (some 1) := by decide
  have hafter : (Trace.run (exclusiveStep 100 0) start (tiedSources ++ [.remove 3])).map exclusive =
      some (some 2) := by decide
  obtain ⟨p, hp, hexclusive⟩ := Option.map_eq_some_iff.mp hbefore
  obtain ⟨p', hp', hexclusive'⟩ := Option.map_eq_some_iff.mp hafter
  obtain ⟨q, hq, hstep⟩ := Trace.run_concat_eq_some.mp hp'
  rw [hp] at hq
  cases hq
  rcases (h.last hp hstep).1 1 hexclusive (by rw [hexclusive']; decide) with hremove | ⟨_, _, hadd, -⟩
  · cases hremove
  · cases hadd

end OpenmrnCue.CommandStation.UpdateProcessor
