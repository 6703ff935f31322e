import OpenmrnCue.Automata.Board

/-! The ids of local variables: those in use since `ClearUsedVariables` are distinct, and they
differ from the timer and from every reserved id. -/

namespace OpenmrnCue.Automata

theorem skipReserved_cases (reserved : List Nat) (fuel id : Nat) :
    id ≤ skipReserved reserved fuel id ∧
      (skipReserved reserved fuel id ∉ reserved ∨ skipReserved reserved fuel id = id + fuel) := by
  induction fuel generalizing id with
  | zero => exact ⟨Nat.le_refl _, .inr rfl⟩
  | succ fuel ih =>
    rw [skipReserved]
    split
    · obtain ⟨hle, hfree⟩ := ih (id + 1)
      refine ⟨by omega, hfree.imp_right fun h => by omega⟩
    · next hfree => exact ⟨Nat.le_refl _, .inl hfree⟩

namespace LocalVariables

/-- What holds of the ids at any time. -/
structure Distinct (s : LocalVariables) : Prop where
  nextId_pos : 0 < s.nextId
  used_pos : ∀ e ∈ s.used, 0 < e.2.id
  used_lt : ∀ e ∈ s.used, e.2.id < s.nextId
  used_free : ∀ e ∈ s.used, e.2.id ∉ s.reserved
  used_distinct : s.used.Pairwise fun e e' => e.2.id ≠ e'.2.id
  reserved_pos : ∀ id ∈ s.reserved, 0 < id
  reserved_distinct : s.reserved.Nodup

variable {s s' : LocalVariables} {id : LocalVariable}

theorem distinct_init : Distinct ⟨[], [], 1⟩ where
  nextId_pos := by decide
  used_pos := by simp
  used_lt := by simp
  used_free := by simp
  used_distinct := List.Pairwise.nil
  reserved_pos := by simp
  reserved_distinct := List.nodup_nil

theorem Distinct.clearUsedVariables (h : s.Distinct) : s.clearUsedVariables.Distinct where
  nextId_pos := by simp [LocalVariables.clearUsedVariables]
  used_pos := by simp [LocalVariables.clearUsedVariables]
  used_lt := by simp [LocalVariables.clearUsedVariables]
  used_free := by simp [LocalVariables.clearUsedVariables]
  used_distinct := List.Pairwise.nil
  reserved_pos := h.reserved_pos
  reserved_distinct := h.reserved_distinct

/-- `GetNextVariableId` gives an id that is neither reserved nor below the next id. -/
theorem getNextVariableId_eq_some (hpos : 0 < s.nextId) (h : s.getNextVariableId = some (id, s')) :
    s.nextId ≤ id.id ∧ id.id ∉ s.reserved ∧ s' = { s with nextId := id.id + 1 } := by
  unfold getNextVariableId at h
  split at h
  · next hlt =>
    cases h
    obtain ⟨hle, hfree⟩ := skipReserved_cases s.reserved maxImportVar s.nextId
    refine ⟨hle, hfree.resolve_right fun heq => ?_, rfl⟩
    omega
  · cases h

theorem getNextVariableId_used (h : s.getNextVariableId = some (id, s')) : s'.used = s.used := by
  unfold getNextVariableId at h
  split at h
  · cases h
    rfl
  · cases h

theorem Distinct.reserveVariable (hs : s.Distinct) (h : s.reserveVariable = some (id, s')) :
    s'.Distinct ∧ s'.used = s.used := by
  obtain ⟨⟨id', between⟩, hnext, h⟩ := Option.bind_eq_some_iff.mp h
  obtain ⟨hle, hfree, rfl⟩ := getNextVariableId_eq_some hs.nextId_pos hnext
  cases h
  refine ⟨?_, rfl⟩
  have hpos := hs.nextId_pos
  constructor
  case nextId_pos => exact Nat.succ_pos _
  case used_pos => exact hs.used_pos
  case used_lt =>
    intro e he
    have := hs.used_lt e he
    simp only
    omega
  case used_free =>
    intro e he hmem
    have hlt := hs.used_lt e he
    rcases List.mem_cons.mp hmem with heq | hmem
    · omega
    · exact hs.used_free e he hmem
  case used_distinct => exact hs.used_distinct
  case reserved_pos =>
    intro other hmem
    rcases List.mem_cons.mp hmem with rfl | hmem
    · omega
    · exact hs.reserved_pos other hmem
  case reserved_distinct => exact List.nodup_cons.mpr ⟨hfree, hs.reserved_distinct⟩

theorem Distinct.addUsed (hs : s.Distinct) {var : GlobalVariable}
    (h : s.addUsed var = some (id, s')) :
    s'.Distinct ∧ s'.used = (var, id) :: s.used ∧ ∀ e ∈ s.used, e.2.id ≠ id.id := by
  obtain ⟨⟨id', between⟩, hnext, h⟩ := Option.bind_eq_some_iff.mp h
  obtain ⟨hle, hfree, rfl⟩ := getNextVariableId_eq_some hs.nextId_pos hnext
  cases h
  have hpos := hs.nextId_pos
  have hne : ∀ e ∈ s.used, e.2.id ≠ id.id := fun e he heq => by
    have := hs.used_lt e he
    omega
  refine ⟨?_, rfl, hne⟩
  constructor
  case nextId_pos => exact Nat.succ_pos _
  case used_pos =>
    intro e he
    rcases List.mem_cons.mp he with rfl | he
    · simp only
      omega
    · exact hs.used_pos e he
  case used_lt =>
    intro e he
    rcases List.mem_cons.mp he with rfl | he
    · exact Nat.lt_succ_self _
    · have := hs.used_lt e he
      simp only
      omega
  case used_free =>
    intro e he
    rcases List.mem_cons.mp he with rfl | he
    · exact hfree
    · exact hs.used_free e he
  case used_distinct =>
    exact List.Pairwise.cons (fun e he => (hne e he).symm) hs.used_distinct
  case reserved_pos => exact hs.reserved_pos
  case reserved_distinct => exact hs.reserved_distinct

end LocalVariables

namespace BodyState

variable {output : Output} {s s' : BodyState}

@[simp] theorem assign_vars {x : Nat} {id : LocalVariable} : (s.assign x id).vars = s.vars := rfl

@[simp] theorem assign_locals_self {x : Nat} {id : LocalVariable} :
    (s.assign x id).locals x = some id :=
  Function.update_self _ _ _

theorem assign_locals_of_ne {x y : Nat} {id : LocalVariable} (h : x ≠ y) :
    (s.assign y id).locals x = s.locals x :=
  Function.update_of_ne h _ _

theorem renderImport_vars {var : GlobalVariable} {id : LocalVariable}
    (h : s.renderImport output var id = some s') : s'.vars = s.vars ∧ s'.locals = s.locals := by
  unfold renderImport at h
  split at h
  · cases h
    exact ⟨rfl, rfl⟩
  · obtain ⟨gid, -, h⟩ := Option.bind_eq_some_iff.mp h
    split at h
    · cases h
      exact ⟨rfl, rfl⟩
    · cases h

/-- A statement keeps the ids distinct. -/
theorem exec_distinct {st : Statement} (hs : s.vars.Distinct) (h : s.exec output st = some s') :
    s'.vars.Distinct := by
  cases st with
  | importVariable x var =>
    simp only [exec] at h
    split at h
    · cases h
      exact hs
    · obtain ⟨⟨id, vars⟩, hadd, h⟩ := Option.bind_eq_some_iff.mp h
      obtain ⟨between, himport, h⟩ := Option.bind_eq_some_iff.mp h
      cases h
      rw [assign, (renderImport_vars himport).1]
      exact (hs.addUsed hadd).1
  | reserveVariable x =>
    obtain ⟨⟨id, vars⟩, hreserve, h⟩ := Option.bind_eq_some_iff.mp h
    cases h
    exact (hs.reserveVariable hreserve).1
  | renderImportVariable var localId =>
    obtain ⟨id, -, h⟩ := Option.bind_eq_some_iff.mp h
    rw [(renderImport_vars h).1]
    exact hs
  | clearUsedVariables =>
    cases h
    exact hs.clearUsedVariables
  | op op =>
    simp only [exec] at h
    split at h
    · cases h
      exact hs
    · obtain ⟨op', -, h⟩ := Option.bind_eq_some_iff.mp h
      cases h
      exact hs

theorem execAll_cons {st : Statement} {statements : List Statement} :
    s.execAll output (st :: statements) =
      (s.exec output st).bind fun s' => s'.execAll output statements := by
  rw [execAll, List.foldlM_cons]
  rfl

theorem execAll_append {before after : List Statement} :
    s.execAll output (before ++ after) =
      (s.execAll output before).bind fun s' => s'.execAll output after := by
  rw [execAll, List.foldlM_append]
  rfl

/-- Statements keep the ids distinct. -/
theorem execAll_distinct {statements : List Statement} (hs : s.vars.Distinct)
    (h : s.execAll output statements = some s') : s'.vars.Distinct := by
  induction statements generalizing s with
  | nil =>
    cases h
    exact hs
  | cons st statements ih =>
    rw [execAll_cons] at h
    obtain ⟨between, hexec, hrest⟩ := Option.bind_eq_some_iff.mp h
    exact ih (exec_distinct hs hexec) hrest

end BodyState

/-- The ids are distinct when an automaton is rendered to the output. -/
theorem Automaton.start_distinct {a : Automaton} {s : BodyState} (h : a.start = some s) :
    s.vars.Distinct := by
  obtain ⟨prepared, hprepared, h⟩ := Option.bind_eq_some_iff.mp h
  obtain ⟨constructed, hconstructed, hprepared⟩ := Option.bind_eq_some_iff.mp hprepared
  cases h
  have hfirst := BodyState.execAll_distinct LocalVariables.distinct_init hconstructed
  have hsecond := BodyState.execAll_distinct hfirst.clearUsedVariables hprepared
  exact hsecond.clearUsedVariables

end OpenmrnCue.Automata
