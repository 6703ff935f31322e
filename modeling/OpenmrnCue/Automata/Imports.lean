import OpenmrnCue.Automata.Refinement

/-! An import has two bytes for the offset of a definition.  The runner does what the builder was
told as long as the imports that are carried out find definitions below offset 2¹⁶. -/

namespace OpenmrnCue.Automata

variable {W : Type} {bits : BitObjects W} {m : Machine W}

/-- The definition that an import finds is named by its two bytes. -/
def Effect.Short : Effect → Prop
  | imported _ offset _ => offset < 2 ^ 16
  | _ => True

instance (e : Effect) : Decidable e.Short := by
  cases e <;> unfold Effect.Short <;> infer_instance

variable {resolve : Nat → Nat} {m' : Machine W}

theorem Machine.write_effects {local_ : Nat} {value : Bool}
    (h : m.write bits local_ value = .ok m') :
    ∃ new, m'.effects = m.effects ++ new ∧ ∀ e ∈ new, e.Short := by
  obtain ⟨⟨ref, arg⟩, -, h⟩ := Except.bind_eq_ok.mp h
  cases ref with
  | timer => cases h
  | declared offset =>
    obtain ⟨object, -, h⟩ := Except.bind_eq_ok.mp h
    obtain ⟨-, h⟩ := Except.require_eq_ok.mp h
    cases h
    exact ⟨_, rfl, by simp [Effect.Short]⟩

theorem Machine.setState_effects {local_ arg : Nat} {value : UInt8}
    (h : m.setState bits local_ arg value = .ok m') :
    ∃ new, m'.effects = m.effects ++ new ∧ ∀ e ∈ new, e.Short := by
  obtain ⟨⟨ref, _⟩, -, h⟩ := Except.bind_eq_ok.mp h
  cases ref with
  | timer => cases h
  | declared offset =>
    obtain ⟨object, -, h⟩ := Except.bind_eq_ok.mp h
    obtain ⟨-, h⟩ := Except.guard_eq_ok.mp h
    cases h
    exact ⟨_, rfl, by simp [Effect.Short]⟩

theorem Machine.importBit_effects {local_ offset arg : Nat}
    (h : m.importBit local_ offset arg = .ok m') :
    m'.effects = m.effects ++ [.imported local_ offset arg] := by
  unfold Machine.importBit at h
  split at h
  · cases h
  · cases h
    rfl

/-- An action imports a variable, or it does not depend on what imports find. -/
theorem Action.perform_cases {a : Action LocalVariable GlobalVariableId}
    (h : a.perform bits resolve m = .ok m') :
    (∃ var localVar, a = .actImportVariable var localVar ∧
      m'.effects = m.effects ++ [.imported localVar.id (resolve var.id) var.arg]) ∨
    (∀ other, a.perform bits other m = .ok m') ∧
      ∃ new, m'.effects = m.effects ++ new ∧ ∀ e ∈ new, e.Short := by
  cases a with
  | actImportVariable var localVar => exact .inl ⟨var, localVar, rfl, Machine.importBit_effects h⟩
  | actReg0 var => exact .inr ⟨fun _ => h, Machine.write_effects h⟩
  | actReg1 var => exact .inr ⟨fun _ => h, Machine.write_effects h⟩
  | actSetValue var offset value => exact .inr ⟨fun _ => h, Machine.setState_effects h⟩
  | actSetValueFromAspect var offset => exact .inr ⟨fun _ => h, Machine.setState_effects h⟩
  | actGetValueToAspect var offset =>
    refine .inr ⟨fun _ => h, ?_⟩
    obtain ⟨value, -, h⟩ := Except.bind_eq_ok.mp h
    cases h
    exact ⟨[], by simp, by simp⟩
  | actState state => cases h; exact .inr ⟨fun _ => rfl, [], by simp, by simp⟩
  | actTimer seconds => cases h; exact .inr ⟨fun _ => rfl, [], by simp, by simp⟩
  | actSetId id => cases h; exact .inr ⟨fun _ => rfl, [], by simp, by simp⟩
  | actSetAspect value => cases h; exact .inr ⟨fun _ => rfl, [], by simp, by simp⟩
  | actUpAspect => cases h; exact .inr ⟨fun _ => rfl, [], by simp, by simp⟩

/-- What a program does, given what imports find: the effects are appended, and whether they are
those of the two bytes of an import decides whether these bytes would have done the same. -/
structure Tracked (program : (Nat → Nat) → Machine W → Except Stop (Machine W)) : Prop where
  short : ∀ m m', program shortOffset m = .ok m' →
    ∃ new, m'.effects = m.effects ++ new ∧ ∀ e ∈ new, e.Short
  same : ∀ m m', program (fun offset => offset) m = .ok m' →
    ∃ new, m'.effects = m.effects ++ new ∧
      ((∀ e ∈ new, e.Short) → program shortOffset m = .ok m')

theorem tracked_ok : Tracked fun _ (m : Machine W) => .ok m where
  short m m' h := by cases h; exact ⟨[], by simp, by simp⟩
  same m m' h := by cases h; exact ⟨[], by simp, fun _ => rfl⟩

theorem Tracked.bind {first second : (Nat → Nat) → Machine W → Except Stop (Machine W)}
    (hfirst : Tracked first) (hsecond : Tracked second) :
    Tracked fun resolve m => first resolve m >>= second resolve where
  short m m' h := by
    obtain ⟨between, h1, h2⟩ := Except.bind_eq_ok.mp h
    obtain ⟨new1, heq1, hshort1⟩ := hfirst.short m between h1
    obtain ⟨new2, heq2, hshort2⟩ := hsecond.short between m' h2
    refine ⟨new1 ++ new2, by rw [heq2, heq1, List.append_assoc], fun e he => ?_⟩
    rcases List.mem_append.mp he with he | he
    · exact hshort1 e he
    · exact hshort2 e he
  same m m' h := by
    obtain ⟨between, h1, h2⟩ := Except.bind_eq_ok.mp h
    obtain ⟨new1, heq1, hsame1⟩ := hfirst.same m between h1
    obtain ⟨new2, heq2, hsame2⟩ := hsecond.same between m' h2
    refine ⟨new1 ++ new2, by rw [heq2, heq1, List.append_assoc], fun hshort => ?_⟩
    refine Except.bind_eq_ok.mpr ⟨between, hsame1 fun e he => ?_, hsame2 fun e he => ?_⟩
    · exact hshort e (List.mem_append_left _ he)
    · exact hshort e (List.mem_append_right _ he)

theorem tracked_perform (a : Action LocalVariable GlobalVariableId) :
    Tracked fun resolve (m : Machine W) => a.perform bits resolve m where
  short m m' h := by
    rcases a.perform_cases h with ⟨var, localVar, -, heq⟩ | ⟨-, hnew⟩
    · refine ⟨_, heq, fun e he => ?_⟩
      rw [List.mem_singleton.mp he]
      exact Nat.mod_lt _ (by decide)
    · exact hnew
  same m m' h := by
    rcases a.perform_cases h with ⟨var, localVar, rfl, heq⟩ | ⟨hany, new, heq, -⟩
    · refine ⟨_, heq, fun hshort => ?_⟩
      have hoffset : var.id < 2 ^ 16 := hshort _ (List.mem_singleton.mpr rfl)
      have hresolve : shortOffset var.id = var.id := Nat.mod_eq_of_lt hoffset
      rw [Action.perform, hresolve]
      exact h
    · exact ⟨new, heq, fun _ => hany shortOffset⟩

theorem tracked_performAll (acts : List (Action LocalVariable GlobalVariableId)) :
    Tracked fun resolve (m : Machine W) => performAll bits resolve m acts := by
  induction acts with
  | nil => exact tracked_ok
  | cons a acts ih => exact (tracked_perform a).bind ih

theorem tracked_op (op : Op LocalVariable GlobalVariableId) :
    Tracked fun resolve (m : Machine W) => op.interpret bits resolve m where
  short m m' h := by
    obtain ⟨keep, hkeep, h⟩ := Except.bind_eq_ok.mp h
    cases keep with
    | false => exact tracked_ok.short m m' h
    | true => exact (tracked_performAll op.acts).short m m' h
  same m m' h := by
    obtain ⟨keep, hkeep, h⟩ := Except.bind_eq_ok.mp h
    cases keep with
    | false =>
      obtain ⟨new, heq, -⟩ := tracked_ok.same m m' h
      exact ⟨new, heq, fun _ => Except.bind_eq_ok.mpr ⟨false, hkeep, h⟩⟩
    | true =>
      obtain ⟨new, heq, hsame⟩ := (tracked_performAll op.acts).same m m' h
      exact ⟨new, heq, fun hshort => Except.bind_eq_ok.mpr ⟨true, hkeep, hsame hshort⟩⟩

theorem tracked_interpret (body : List (Op LocalVariable GlobalVariableId)) :
    Tracked fun resolve (m : Machine W) => interpret bits resolve m body := by
  induction body with
  | nil => exact tracked_ok
  | cons op body ih => exact (tracked_op op).bind ih

/-- Where the operations of a body can be carried out as they were given to the builder, the runner
carries them out with the same result exactly if every import among them finds a definition below
offset 2¹⁶. -/
theorem runs_alike_iff (bits : BitObjects W) (code : List Insn) (start : Nat)
    (body : List (Op LocalVariable GlobalVariableId)) (hadmitted : ∀ op ∈ body, op.Admitted)
    (hreads : Reads code start (render body)) (m result : Machine W)
    (htold : interpret bits (fun offset => offset) (Runner.resetForAutomata m start).machine body =
      .ok result) :
    (∃ ip, Runner.Runs bits code (Runner.resetForAutomata m start) (.ok ⟨ip, result⟩)) ↔
      ∀ e ∈ result.effects, e.Short := by
  have hruns := runs_body bits (m := (Runner.resetForAutomata m start).machine) hadmitted
    hreads
  constructor
  · rintro ⟨ip, hip⟩
    have heq := Run.Halts.unique hruns hip
    cases hshort : interpret bits shortOffset (Runner.resetForAutomata m start).machine body with
    | error stop =>
      rw [hshort] at heq
      cases heq
    | ok other =>
      rw [hshort] at heq
      cases heq
      obtain ⟨new, heffects, hnew⟩ := (tracked_interpret body).short _ _ hshort
      rw [heffects]
      simpa [Runner.resetForAutomata] using hnew
  · intro hshort
    obtain ⟨new, heffects, hsame⟩ := (tracked_interpret body).same _ _ htold
    have hnew : ∀ e ∈ new, e.Short := by
      rw [heffects] at hshort
      simpa [Runner.resetForAutomata] using hshort
    rw [hsame hnew] at hruns
    exact ⟨_, hruns⟩

/-- A board of one automaton and 2521 event-based variables, each defined by 26 bytes. -/
def manyVariables : Machine Unit :=
  { Machine.init () with
    declared := fun offset =>
      if 28 ≤ offset ∧ (offset - 28) % 26 = 0 ∧ offset < 28 + 26 * 2521 then
        some (.eventBit (UInt64.ofNat (2 * offset)) (UInt64.ofNat (2 * offset + 1)) 1 0 0)
      else none }

/-- The import of a variable as local variable 1, and an action on it. -/
def importAndSet (offset : Nat) : List (Op LocalVariable GlobalVariableId) :=
  [⟨[], [.actImportVariable ⟨offset, 0⟩ ⟨1, one_lt_maxImportVar⟩]⟩,
    ⟨[.ifReg0 ⟨1, one_lt_maxImportVar⟩], [.actReg1 ⟨1, one_lt_maxImportVar⟩]⟩]

theorem importAndSet_admitted (offset : Nat) : ∀ op ∈ importAndSet offset, op.Admitted := by
  intro op hop
  rcases List.mem_cons.mp hop with rfl | hop
  · exact ⟨⟨by simp, by simp [Action.Admitted], Nat.zero_lt_succ _,
      by simp [Op.actBytes, Action.bytes]⟩, by simp⟩
  · rw [List.mem_singleton.mp hop]
    exact ⟨by decide, by decide⟩

theorem runs_alike_first :
    ∃ result, interpret zeroBits (fun offset => offset)
      (Runner.resetForAutomata manyVariables 0).machine (importAndSet 28) = .ok result ∧
      result.effects = [.imported 1 28 0, .write 28 0 true] ∧
      ∃ ip, Runner.Runs zeroBits (render (importAndSet 28))
        (Runner.resetForAutomata manyVariables 0)
        (.ok ⟨ip, result⟩) := by
  refine ⟨_, rfl, rfl, (runs_alike_iff zeroBits _ 0 (importAndSet 28) (importAndSet_admitted 28) ?_
    manyVariables _ rfl).mpr ?_⟩
  · exact List.prefix_refl _
  · decide

/-- The last of these variables is defined at offset 65548, and the runner looks for a definition at
offset 12. -/
theorem lastVariable_not_found :
    (∀ op ∈ importAndSet 65548, op.Admitted) ∧ (manyVariables.declared 65548).isSome ∧
    (∃ result, interpret zeroBits (fun offset => offset)
      (Runner.resetForAutomata manyVariables 0).machine (importAndSet 65548) = .ok result) ∧
    Runner.Runs zeroBits (render (importAndSet 65548)) (Runner.resetForAutomata manyVariables 0)
      (.error .dieAutHalt) :=
  ⟨importAndSet_admitted 65548, rfl, ⟨_, rfl⟩, Run.Halts.of_step rfl⟩

end OpenmrnCue.Automata
