import OpenmrnCue.Logic.SoundRun

/-! The length of the operand stack at `CHECK_STACK_LENGTH`.  The compiler counts variables only, so
its count is right in every run that makes no call in the middle of an expression, no call with the
wrong number of arguments and no call of a function that has no address. -/

namespace OpenmrnCue.Logic

section

variable {W H : Type} {f : VariableFactory W H} {vm : VM W H} {e : Emitted} {imports : Int → Prop}

/-- Every call that the run from `start` comes to keeps the accounts of the compiler right. -/
def SoundCalls (f : VariableFactory W H) (e : Emitted) (start : VM W H) : Prop :=
  ∀ t, Run.Reaches (VM.step f) start t → ∀ site, AtSite e t.ip site → site.Sound e.functions

/-- The stack stays small. -/
theorem Ready.stack_le {b : Nat} (h : Ready b e imports true vm) :
    vm.operandStack.length ≤ 2 ^ 17 ∧ vm.fp ≤ 2 ^ 17 := by
  obtain ⟨main, lim, k, ks, items, -, -, -, hacc⟩ := h.here
  have := hacc rfl
  omega

/-- At a check, the stack has the length that the compiler expects. -/
theorem Ready.length_at_check (f : VariableFactory W H) (h : Ready 0 e imports true vm)
    (hprog : SoundProgram imports true e)
    (hsites : ∀ site, AtSite e vm.ip site → site.Sound e.functions) {operand : Int32}
    {tail rest : Bytes} (hrest : vm.rest = OpCode.checkStackLength.toByte :: tail)
    (hparse : parseVarint tail = some (operand, rest)) :
    (vm.operandStack.length : Int) = vm.fp + operand.toInt := by
  have hproceeds := h.step (f := f) hprog (fun _ => rfl) (fun _ => hsites)
  have hequal : vm.operandStack.length = toUnsigned (vm.fp + operand.toInt) := by
    refine Decidable.byContradiction fun hne => ?_
    obtain ⟨vm', hfail⟩ := VM.step_checkStackLength_fails (f := f) hrest hparse hne
    rw [hfail] at hproceeds
    obtain ⟨err, herr, hgood, -⟩ := hproceeds rfl
    cases herr
    cases hgood rfl
  -- The frame pointer and the stack are small, so the sum does not wrap around.
  obtain ⟨hstack, hfp⟩ := h.stack_le
  have hlow := operand.le_toInt
  have hhigh := operand.toInt_lt
  unfold toUnsigned at hequal
  omega

end

/-- For every program that the parser accepts, in every run of its code in the block 0 in which
every call is sound: the stack has the length that `CHECK_STACK_LENGTH` expects, and the run does
not end with the stack length error. -/
theorem checkStackLength_exact {W H : Type} (f : VariableFactory W H) (guid : Int)
    (unit : List CommandTree) (commands : List Command) (d : Driver)
    (hparse : (Driver.start guid).parseFile unit = .ok (commands, d)) (vm loaded : VM W H)
    (hload : vm.setBlockCode 0 (d.serialize commands).1 = some loaded)
    (hcalls : SoundCalls f (d.emit commands) (loaded.clear.enterBlock 0)) :
    (∀ t, Run.Reaches (VM.step f) (loaded.clear.enterBlock 0) t →
      ∀ operand tail rest, t.rest = OpCode.checkStackLength.toByte :: tail →
        parseVarint tail = some (operand, rest) →
        (t.operandStack.length : Int) = t.fp + operand.toInt) ∧
    ∀ final, Run.Halts (VM.step f) (loaded.clear.enterBlock 0) (.exception, final) →
      ∀ ip expected actual, final.error ≠ some (.stackLength ip expected actual) := by
  have hprog : SoundProgram (fun _ => True) true (d.emit commands) :=
    Driver.sound_emit hparse (fun _ _ => trivial) true
  rw [Driver.serialize_eq_emit] at hload
  have hready : ∀ t, Run.Reaches (VM.step f) (loaded.clear.enterBlock 0) t →
      Ready 0 (d.emit commands) (fun _ => True) true t := fun t hreach =>
    Ready.reaches hprog (Ready.start hprog hload nofun) (fun _ => hcalls) hreach
  constructor
  · intro t hreach operand tail rest hrest hvarint
    exact (hready t hreach).length_at_check f hprog (hcalls t hreach) hrest hvarint
  · rintro final ⟨t, hreach, hstep⟩ ip expected actual herr
    have hproceeds := (hready t hreach).step (f := f) hprog (fun _ => rfl) fun _ => hcalls t hreach
    rw [hstep] at hproceeds
    obtain ⟨err, herr', hgood, -⟩ := hproceeds rfl
    simp only [herr, Option.some.injEq] at herr'
    subst herr'
    cases hgood rfl

/-- `int f() { return_value = 1; } int x; x = f();` -/
def callAlone : List CommandTree :=
  [.function .localVar .int "f" [] [.assignInt "return_value" (.number 1)],
    .variableDecl .localVar .int ⟨"x", [], .none⟩ [] true,
    .assignInt "x" (.intFunction "f" [])]

theorem checkStackLength_callAlone :
    ∃ commands d loaded, (Driver.start 0).parseFile callAlone = .ok (commands, d) ∧
      (VM.fresh ()).setBlockCode 0 (d.serialize commands).1 = some loaded ∧
      ∀ t, Run.Reaches (VM.step .zero) (loaded.clear.enterBlock 0) t →
        ∀ operand tail rest, t.rest = OpCode.checkStackLength.toByte :: tail →
          parseVarint tail = some (operand, rest) →
          (t.operandStack.length : Int) = t.fp + operand.toInt := by
  have hcode : (compile 0 callAlone).map (fun e => (e.items, e.functions)) = some
      ([.insn .ifPreamble, .insnArg .testJumpIfFalse 1, .insn .terminate, .insnArg .jump 4,
        .insn .pushConstant1, .insnArg .storeFpRel (-1), .insn .ret, .insnArg .checkStackLength 0,
        .insn .pushConstant0, .callSite ⟨"f", 6, 0, 0⟩, .insnArg .checkStackLength 1,
        .insn .pushConstant0, .insnArg .pushConstant 6, .insnArg .call 0,
        .insnArg .storeFpRel 0],
       [⟨"f", [], 6, [.insn .pushConstant1, .insnArg .storeFpRel (-1), .insn .ret]⟩]) := by
    decide
  obtain ⟨e, he, hitems⟩ := Option.map_eq_some_iff.mp hcode
  obtain ⟨commands, d, hparse, rfl⟩ := compile_eq_some he
  obtain ⟨hitems, hfunctions⟩ := Prod.mk.inj hitems
  have hshort : (d.serialize commands).1.length < 2 ^ 16 := by
    rw [Driver.serialize_eq_emit]
    simp only [hitems]
    decide
  obtain ⟨loaded, hload⟩ := VM.setBlockCode_isSome (VM.fresh (H := Unit) ()) 0 hshort
  refine ⟨commands, d, loaded, hparse, hload,
    (checkStackLength_exact .zero 0 callAlone commands d hparse _ loaded hload ?_).1⟩
  rintro t - site ⟨pre, post, hsite, -⟩
  have hmem : Item.callSite site ∈ (d.emit commands).items := by simp [hsite]
  simp only [hitems, List.mem_cons, Item.callSite.injEq, reduceCtorEq, false_or, or_false,
    List.not_mem_nil] at hmem
  subst hmem
  exact ⟨rfl, _, hfunctions ▸ List.mem_singleton_self _, rfl, rfl, rfl⟩

/-- `int f() { return_value = 1; } int x; x = 1 + f();` -/
def callInSum : List CommandTree :=
  [.function .localVar .int "f" [] [.assignInt "return_value" (.number 1)],
    .variableDecl .localVar .int ⟨"x", [], .none⟩ [] true,
    .assignInt "x" (.binary .plus (.number 1) (.intFunction "f" []))]

/-- The left side of the sum is on the stack when the call is checked. -/
theorem stackLength_callInSum :
    ∃ commands d loaded, (Driver.start 0).parseFile callInSum = .ok (commands, d) ∧
      (VM.fresh ()).setBlockCode 0 (d.serialize commands).1 = some loaded ∧
      ∃ final, Run.Halts (VM.step .zero) (loaded.clear.enterBlock 0) (.exception, final) ∧
        final.error = some (.stackLength 16 1 2) := by
  have hrun : (executeFresh callInSum 20).map (fun r => (r.1, r.2.error)) =
      some (.exception, some (.stackLength 16 1 2)) := by decide
  obtain ⟨⟨_, final⟩, hrun, hfinal⟩ := Option.map_eq_some_iff.mp hrun
  obtain ⟨rfl, herr⟩ := Prod.mk.inj hfinal
  obtain ⟨commands, d, loaded, hparse, hload, hhalts⟩ := executeFresh_eq_some hrun
  exact ⟨commands, d, loaded, hparse, hload, final, hhalts, herr⟩

end OpenmrnCue.Logic
