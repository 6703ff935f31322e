import OpenmrnCue.Logic.Emit
import OpenmrnCue.Logic.Execution
import OpenmrnCue.Logic.Parser

/-! The rounds of the runner on the logic blocks: a block is compiled and its preamble executed, or
its code is executed.  All blocks share one virtual machine, and whatever code runs in it, the code
of the blocks stays and no variable goes away. -/

namespace OpenmrnCue.Logic

section

variable {W H : Type}

/-- `VM::clear_block_code`. -/
def VM.clearBlockCode (vm : VM W H) (blockNum : UInt8) : VM W H :=
  { vm with blocks := vm.blocks.set blockNum.toNat [] }

/-- The configuration of a logic block: its source, if it is a text of the grammar at all, and the
switch that enables it. -/
structure LogicBlock where
  source : Option (List CommandTree)
  enabled : Bool

/-- The compiled program, if there is one. -/
def LogicBlock.parse (lb : LogicBlock) (block : UInt8) : Option (List Command × Driver) :=
  lb.source.bind fun unit => ((Driver.start (block.toNat <<< 16)).parseFile unit).toOption

/-- The variables of a block are gone. -/
def VM.dropBlock (vm : VM W H) (block : UInt8) : VM W H :=
  vm.dropVariables (block.toNat <<< 16) ((block.toNat + 1) <<< 16)

/-- The code `bc` is loaded and its preamble executed; `none` if the assertion on the size of the
code fails.  Every round of a preamble moves the pointer over a byte. -/
def runPreamble (f : VariableFactory W H) (vm : VM W H) (block : UInt8) (bc : Bytes) :
    Option (Verdict × VM W H) := do
  let vm ← vm.clear.setBlockCode block bc
  ((vm.setPreamble true).dropBlock block).executeBlock f (bc.length + 1) block

/-- The round of `Runner::compile_impl` for one block. -/
def compileBlock (f : VariableFactory W H) (vm : VM W H) (block : UInt8) (lb : LogicBlock) :
    Option (VM W H) :=
  match lb.parse block with
  | none => some (vm.clearBlockCode block)
  | some (commands, d) =>
    if lb.enabled then (runPreamble f vm block (d.serialize commands).1).map Prod.snd
    else some ((vm.dropBlock block).clearBlockCode block)

/-- The round of `Runner::single_step` for one block, with at most `fuel` rounds of the machine. -/
def stepBlock (f : VariableFactory W H) (fuel : Nat) (vm : VM W H) (block : UInt8) :
    Option (Verdict × VM W H) :=
  (vm.clear.setPreamble false).executeBlock f fuel block

/-- What happens on the thread of the runner, one block at a time. -/
inductive RunnerEvent
  | compile (block : UInt8) (lb : LogicBlock)
  | step (block : UInt8) (fuel : Nat)

def runnerStep (f : VariableFactory W H) (vm : VM W H) : RunnerEvent → Option (VM W H)
  | .compile block lb => compileBlock f vm block lb
  | .step block fuel => (stepBlock f fuel vm block).map Prod.snd

end

/-! ### Fields that the runner leaves alone -/

namespace VM

variable {W H : Type} (vm : VM W H)

theorem clear_fields : vm.clear.variableRequest = vm.variableRequest ∧ vm.clear.world = vm.world :=
  ⟨rfl, rfl⟩

theorem clearBlockCode_fields (b : UInt8) :
    (vm.clearBlockCode b).variableRequest = vm.variableRequest ∧
      (vm.clearBlockCode b).world = vm.world := ⟨rfl, rfl⟩

theorem dropVariables_fields (begin stop : Nat) :
    (vm.dropVariables begin stop).blocks = vm.blocks ∧
      (vm.dropVariables begin stop).isPreamble = vm.isPreamble ∧
      (vm.dropVariables begin stop).variableRequest = vm.variableRequest ∧
      (vm.dropVariables begin stop).world = vm.world := ⟨rfl, rfl, rfl, rfl⟩

theorem dropBlock_fields (b : UInt8) :
    (vm.dropBlock b).blocks = vm.blocks ∧ (vm.dropBlock b).isPreamble = vm.isPreamble ∧
      (vm.dropBlock b).variableRequest = vm.variableRequest ∧
      (vm.dropBlock b).world = vm.world := vm.dropVariables_fields _ _

/-- The machine at the start of a preamble. -/
theorem enterPreamble {b : UInt8} (h : b.toNat < vm.blocks.length) :
    ∃ vm', ((vm.setPreamble true).dropBlock b).enterBlock b = vm' ∧
      vm'.code = vm.blocks.getD b.toNat [] ∧ vm'.ip = 0 ∧ vm'.isPreamble = true ∧
      vm'.blockNum = b ∧ vm'.variableRequest = vm.variableRequest ∧ vm'.world = vm.world := by
  obtain ⟨hblocks, hpreamble, hrequest, hworld⟩ := (vm.setPreamble true).dropBlock_fields b
  generalize (vm.setPreamble true).dropBlock b = dropped at hblocks hpreamble hrequest hworld
  refine ⟨_, enterBlock_eq dropped (hblocks ▸ h), ?_, rfl, hpreamble, rfl, hrequest, hworld⟩
  simp only [code, hblocks]
  rfl

end VM

/-! ### Preambles -/

namespace VM

variable {W H : Type} {f : VariableFactory W H} {vm : VM W H}

/-- `CREATE_VAR` hands the factory what it makes of the member and of the string accumulator. -/
theorem step_createVar_eq {guid numStates : Int} {tail : Bytes}
    (hrest : vm.rest = Item.bytes (.createVar guid numStates) ++ tail) :
    step f vm =
      let vm' := vm.advance (Item.bytes (.createVar guid numStates)).length
      match f.createVariable vm.world (vm.creationRequest (.ofInt numStates)) with
      | (none, request, world) =>
        { vm' with stringAcc := [], variableRequest := request, world }.fail
          (.createVariable request.name)
      | (some handle, _, world) =>
        { vm' with
          stringAcc := []
          variableRequest := .cleared
          externalVariables := Function.update vm.externalVariables
            (Int32.ofInt guid).toUInt32 (some (.external handle))
          world }.proceed := by
  have hrest1 : vm.rest = opArg .createVar guid ++ (appendVarint (.ofInt numStates) ++ tail) := by
    simpa [Item.bytes] using hrest
  rw [step_of_rest (rest_opArg hrest1), executeInsn, getVarint_opArg hrest1,
    getVarint_eq (rest_advance hrest1), advance_advance]
  simp only [Item.bytes, List.length_append]
  rfl

/-- With the preamble on, the code in front of the commands runs it. -/
theorem run_ifPreamble (f : VariableFactory W H) {commands : List Command} {tail : Bytes}
    (hrest : vm.rest = itemBytes (preambleItems commands) ++ tail)
    (hshort : vm.code.length < 2 ^ 16) (hpreamble : vm.isPreamble = true) :
    ∃ vm', (∀ fuel, Run.run (step f) (fuel + 2) vm = Run.run (step f) fuel vm') ∧
      vm'.rest = itemBytes (commands.flatMap Command.emitPreamble) ++
        OpCode.terminate.toByte :: tail ∧
      vm'.code = vm.code ∧ vm'.blockNum = vm.blockNum ∧
      vm'.variableRequest = vm.variableRequest ∧ vm'.world = vm.world := by
  set preamble := itemBytes (commands.flatMap Command.emitPreamble ++ [.insn .terminate])
    with hdef
  have hsplit : vm.rest = OpCode.ifPreamble.toByte ::
      (opArg .testJumpIfFalse preamble.length ++ (preamble ++ tail)) := by
    rw [hrest, preambleItems]
    simp [Item.bytes, hdef]
  have hpush : step f vm = .inl ((vm.push 1).advance 1) := by
    rw [step_of_rest hsplit]
    simp only [executeInsn, advance_isPreamble, hpreamble]
    rfl
  have hrest1 : ((vm.push 1).advance 1).rest = _ := rest_advance_one hsplit
  have htest := step_testJumpIfFalse (f := f) hrest1 hshort
    (show ((vm.push 1).advance 1).operandStack = vm.operandStack ++ [1] from rfl)
  rw [if_neg (by decide), Nat.add_zero] at htest
  have hrest2 : ((((vm.push 1).advance 1).withStack vm.operandStack).advance
      (opArg .testJumpIfFalse preamble.length).length).rest = preamble ++ tail :=
    rest_advance hrest1
  have hends : preamble ++ tail = itemBytes (commands.flatMap Command.emitPreamble) ++
      OpCode.terminate.toByte :: tail := by
    simp [hdef, Item.bytes]
  refine ⟨_, fun fuel => ?_, hrest2.trans hends, rfl, rfl, rfl, rfl⟩
  simp only [Run.run, hpush, htest]

/-- There is code in front of the declarations. -/
theorem two_le_of_preamble {commands : List Command} {tail : Bytes}
    (hrest : vm.rest = itemBytes (preambleItems commands) ++ tail) :
    (itemBytes (commands.flatMap Command.emitPreamble)).length + 2 ≤ vm.code.length := by
  have hlen := congrArg List.length hrest
  simp only [length_rest, preambleItems, itemBytes_cons, itemBytes_append, Item.bytes,
    length_opArg, List.length_append, List.length_cons, List.length_nil] at hlen
  omega

end VM

/-! ### What every instruction keeps -/

namespace VM

variable {W H : Type} {f : VariableFactory W H} {vm vm' : VM W H}

/-- The code of the blocks is the same, and every variable is still there. -/
structure Keeps (vm vm' : VM W H) : Prop where
  blocks : vm'.blocks = vm.blocks
  kept : ∀ guid, vm.externalVariables guid ≠ none → vm'.externalVariables guid ≠ none

theorem Keeps.refl (vm : VM W H) : Keeps vm vm := ⟨rfl, fun _ h => h⟩

theorem Keeps.trans {vm'' : VM W H} (h : Keeps vm vm') (h' : Keeps vm' vm'') : Keeps vm vm'' :=
  ⟨h'.blocks.trans h.blocks, fun guid hg => h'.kept guid (h.kept guid hg)⟩

/-- A round keeps the code and the variables, whether it ends the run or not. -/
def StepKeeps (vm : VM W H) : Step W H → Prop
  | .inl vm' => Keeps vm vm'
  | .inr r => Keeps vm r.2

theorem Keeps.getVarint (h : Keeps vm vm') {k : Int32 → VM W H → Step W H}
    (hk : ∀ v vm'', Keeps vm vm'' → StepKeeps vm (k v vm'')) :
    StepKeeps vm (vm'.getVarint k) := by
  unfold VM.getVarint
  split
  · exact ⟨h.blocks, h.kept⟩
  · exact hk _ _ ⟨h.blocks, h.kept⟩

theorem Keeps.getFromStack (h : Keeps vm vm') {insn : OpCode} {name : String}
    {k : Int32 → VM W H → Step W H} (hk : ∀ v vm'', Keeps vm vm'' → StepKeeps vm (k v vm'')) :
    StepKeeps vm (vm'.getFromStack insn name k) := by
  unfold VM.getFromStack
  split
  · exact ⟨h.blocks, h.kept⟩
  · exact hk _ _ ⟨h.blocks, h.kept⟩

theorem Keeps.fail (h : Keeps vm vm') (e : VMError) : StepKeeps vm (vm'.fail e) :=
  ⟨h.blocks, h.kept⟩

theorem Keeps.proceed (h : Keeps vm vm') : StepKeeps vm vm'.proceed := h

theorem Keeps.push (h : Keeps vm vm') (v : Int32) : StepKeeps vm ((vm'.push v).proceed) :=
  ⟨h.blocks, h.kept⟩

theorem Keeps.pushReference (h : Keeps vm vm') (ref : VMVariableReference) :
    Keeps vm (vm'.pushReference ref) :=
  ⟨h.blocks, h.kept⟩

theorem Keeps.jump (h : Keeps vm vm') (target : Nat) : Keeps vm (vm'.jump target) := by
  simp only [VM.jump, VM.jump?]
  split
  · exact h
  · split
    · exact h
    · exact ⟨h.blocks, h.kept⟩

theorem Keeps.binary (h : Keeps vm vm') (insn : OpCode) (name : String)
    (op : Int32 → Int32 → Int32) : StepKeeps vm (vm'.binary insn name op) :=
  h.getFromStack fun _ _ h => h.getFromStack fun _ _ h => h.push _

theorem Keeps.division (h : Keeps vm vm') (insn : OpCode) (op : Int32 → Int32 → Int32) :
    StepKeeps vm (vm'.division insn op) := by
  refine h.getFromStack fun _ _ h => h.getFromStack fun _ _ h => ?_
  split
  · exact h.fail _
  · exact h.push _

theorem Keeps.testJump (h : Keeps vm vm') (insn : OpCode) (name : String) (takes : Int32 → Bool) :
    StepKeeps vm (vm'.testJump insn name takes) := by
  refine h.getVarint fun _ _ h => h.getFromStack fun _ _ h => ?_
  split
  · simp only
    split
    · exact h
    · exact ⟨h.blocks, h.kept⟩
  · exact h

/-- A variable that is added takes none away. -/
theorem Keeps.update (h : Keeps vm vm') (guid : UInt32) (v : Variable H) :
    ∀ g, vm.externalVariables g ≠ none →
      Function.update vm'.externalVariables guid (some v) g ≠ none := by
  intro g hg
  by_cases hsame : g = guid
  · subst hsame
    simp
  · rw [Function.update_of_ne hsame]
    exact h.kept g hg

theorem Keeps.readVariable (h : Keeps vm vm') {ref : VMVariableReference} {v : Int32}
    {vm'' : VM W H} (hread : vm'.readVariable f ref = some (v, vm'')) : Keeps vm vm'' := by
  unfold VM.readVariable at hread
  split at hread
  · split at hread
    · cases hread
      exact ⟨h.blocks, h.kept⟩
    · cases hread
      exact h
  · split at hread
    · cases hread
    · cases hread
      exact h
    · cases hread
      split
      · exact ⟨h.blocks, h.kept⟩
      · exact ⟨h.blocks, h.kept⟩

theorem Keeps.writeVariable (h : Keeps vm vm') {ref : VMVariableReference} {v : Int32}
    {vm'' : VM W H} (hwrite : vm'.writeVariable f ref v = some vm'') : Keeps vm vm'' := by
  unfold VM.writeVariable at hwrite
  split at hwrite
  · split at hwrite
    · cases hwrite
      exact ⟨h.blocks, h.kept⟩
    · cases hwrite
      exact ⟨h.blocks, h.kept⟩
  · split at hwrite
    · cases hwrite
    · cases hwrite
      exact ⟨h.blocks, h.update _ _⟩
    · cases hwrite
      split
      · exact ⟨h.blocks, h.kept⟩
      · exact ⟨h.blocks, h.kept⟩

/-- No instruction changes the code or takes a variable away. -/
theorem Keeps.executeInsn (h : Keeps vm vm') (insn : OpCode) :
    StepKeeps vm (vm'.executeInsn f insn) := by
  cases insn with
  | terminate | nop | printStr | ifPreamble | pushConstant0 | pushConstant1 =>
    exact ⟨h.blocks, h.kept⟩
  | assignVar | assignVar0 | assignVar1 | numericInvert => exact h.fail _
  | pushConstant => exact h.getVarint fun v _ h => h.push v
  | numericPlus | numericMinus | numericMul | boolEq | boolNeq | numericLeq | numericGeq
  | numericLt | numericGt | numericEq | numericNeq => exact h.binary _ _ _
  | numericDiv | numericMod => exact h.division _ _
  | boolNot | boolProject => exact h.getFromStack fun _ _ h => h.push _
  | testJumpIfFalse | testJumpIfTrue => exact h.testJump _ _ _
  | jump =>
    rw [VM.executeInsn]
    exact h.getVarint fun _ _ h => (h.jump _).proceed
  | printNum =>
    rw [VM.executeInsn]
    refine h.getFromStack fun _ _ h => Keeps.proceed ?_
    exact ⟨h.blocks, h.kept⟩
  | createIndirectVar =>
    rw [VM.executeInsn]
    exact h.getVarint fun _ _ h => (h.pushReference _).proceed
  | enter =>
    rw [VM.executeInsn]
    refine h.getVarint fun _ _ h => ?_
    simp only
    split
    · exact h
    · exact ⟨h.blocks, h.kept⟩
  | leave =>
    rw [VM.executeInsn]
    refine h.getVarint fun _ _ h => ?_
    split
    · exact h.fail _
    · split
      · exact h.fail _
      · exact ⟨h.blocks, h.kept⟩
  | checkStackLength =>
    rw [VM.executeInsn]
    refine h.getVarint fun _ _ h => ?_
    split
    · exact h.fail _
    · exact h
  | storeFpRel =>
    rw [VM.executeInsn]
    refine h.getFromStack fun _ _ h => h.getVarint fun _ _ h => ?_
    simp only
    split
    · exact h.fail _
    · exact ⟨h.blocks, h.kept⟩
  | loadFpRel =>
    rw [VM.executeInsn]
    refine h.getVarint fun _ _ h => ?_
    split
    · exact h.fail _
    · exact h.push _
  | indirectLoad =>
    rw [VM.executeInsn]
    refine h.getFromStack fun _ _ h => ?_
    split
    · exact h.fail _
    · split
      · exact h
      · next hread =>
        have h := h.readVariable hread
        split
        · exact h
        · exact h.push _
  | indirectStore =>
    rw [VM.executeInsn]
    refine h.getFromStack fun _ _ h => h.getFromStack fun _ _ h => ?_
    split
    · exact h.fail _
    · split
      · exact h
      · next hwrite =>
        have h := h.writeVariable hwrite
        split
        · exact h
        · exact h
  | pushTop =>
    simp only [VM.executeInsn]
    split
    · exact h.fail _
    · exact h.push _
  | popOp =>
    simp only [VM.executeInsn]
    split
    · exact h.fail _
    · exact ⟨h.blocks, h.kept⟩
  | loadString =>
    have hcleared : Keeps vm { vm' with stringAcc := [] } := ⟨h.blocks, h.kept⟩
    rw [VM.executeInsn, VM.parseString]
    refine hcleared.getVarint fun _ _ h => ?_
    split
    · exact h
    · split
      · exact h.fail _
      · exact ⟨h.blocks, h.kept⟩
  | createVar =>
    rw [VM.executeInsn]
    refine h.getVarint fun _ _ h => h.getVarint fun _ _ h => ?_
    split
    · exact ⟨h.blocks, h.kept⟩
    · exact ⟨h.blocks, h.update _ _⟩
  | importVar =>
    rw [VM.executeInsn]
    refine h.getFromStack fun _ _ h => h.getFromStack fun _ _ h => ?_
    split
    · exact h.fail _
    · exact ⟨h.blocks, h.kept⟩
  | createStaticVar =>
    rw [VM.executeInsn]
    refine h.getVarint fun _ _ h => ?_
    simp only
    split
    · exact ⟨h.blocks, h.update _ _⟩
    · exact ⟨h.blocks, h.kept⟩
  | call =>
    simp only [VM.executeInsn]
    split
    · exact h.fail _
    · split
      · exact h.fail _
      · refine h.getFromStack fun _ _ h => h.getVarint fun _ _ h => ?_
        refine Keeps.proceed (Keeps.jump ?_ _)
        exact ⟨h.blocks, h.kept⟩
  | ret =>
    simp only [VM.executeInsn]
    split
    · next s _ _ _ =>
      have hframe : Keeps vm { vm' with
          variableStack := vm'.variableStack.take s.vp
          operandStack := vm'.operandStack.takeD s.fp 0 } := ⟨h.blocks, h.kept⟩
      have hjump := hframe.jump s.returnAddress
      exact ⟨hjump.blocks, hjump.kept⟩
    · exact h.fail _

theorem stepKeeps (f : VariableFactory W H) (vm : VM W H) : StepKeeps vm (step f vm) := by
  have hpast : Keeps vm { vm with ip := vm.ip + 1 } := ⟨rfl, fun _ h => h⟩
  unfold step
  split
  · exact Keeps.refl vm
  · simp only
    split
    · exact hpast.fail _
    · exact hpast.executeInsn _

theorem Keeps.of_run {fuel : Nat} {r : Verdict × VM W H}
    (h : Run.run (step f) fuel vm = some r) : Keeps vm r.2 := by
  induction fuel generalizing vm with
  | zero => cases h
  | succ fuel ih =>
    have hstep := stepKeeps f vm
    rw [Run.run] at h
    cases hs : step f vm with
    | inl vm' =>
      rw [hs] at h hstep
      exact hstep.trans (ih h)
    | inr r' =>
      rw [hs] at h hstep
      cases h
      exact hstep

theorem keeps_enterBlock (vm : VM W H) (b : UInt8) : Keeps vm (vm.enterBlock b) := by
  have hnum : Keeps vm { vm with blockNum := b } := ⟨rfl, fun _ h => h⟩
  rw [enterBlock]
  exact hnum.jump _

theorem Keeps.executeBlock {fuel : Nat} {b : UInt8} {r : Verdict × VM W H}
    (h : vm.executeBlock f fuel b = some r) : Keeps vm r.2 :=
  (keeps_enterBlock vm b).trans (of_run h)

/-! ### What the events of other blocks keep -/

/-- The code and the variables of the block `b` are still there. -/
structure Spares (b : UInt8) (vm vm' : VM W H) : Prop where
  code : vm'.blocks.getD b.toNat [] = vm.blocks.getD b.toNat []
  length : vm.blocks.length ≤ vm'.blocks.length
  few : vm.blocks.length ≤ 256 → vm'.blocks.length ≤ 256
  kept : ∀ guid : UInt32, b.toNat * 2 ^ 16 ≤ guid.toNat → guid.toNat < (b.toNat + 1) * 2 ^ 16 →
    vm.externalVariables guid ≠ none → vm'.externalVariables guid ≠ none

variable {b j : UInt8}

theorem Spares.trans {vm'' : VM W H} (h : Spares b vm vm') (h' : Spares b vm' vm'') :
    Spares b vm vm'' :=
  ⟨h'.code.trans h.code, Nat.le_trans h.length h'.length, fun hfew => h'.few (h.few hfew),
    fun guid hlow hhigh hg => h'.kept guid hlow hhigh (h.kept guid hlow hhigh hg)⟩

theorem Keeps.spares (h : Keeps vm vm') (b : UInt8) : Spares b vm vm' :=
  ⟨by rw [h.blocks], by simp [h.blocks], by simp [h.blocks], fun guid _ _ hg => h.kept guid hg⟩

theorem setBlockCode_blocks {code : Bytes} (h : vm.setBlockCode j code = some vm') :
    vm'.blocks =
      (vm.blocks ++ List.replicate (j.toNat + 1 - vm.blocks.length) []).set j.toNat code ∧
    vm'.externalVariables = vm.externalVariables := by
  obtain ⟨-, h⟩ := Option.ite_none_right_eq_some.mp h
  cases h
  exact ⟨rfl, rfl⟩

theorem length_setBlockCode {code : Bytes} (h : vm.setBlockCode j code = some vm') :
    vm'.blocks.length = max vm.blocks.length (j.toNat + 1) := by
  rw [(setBlockCode_blocks h).1]
  simp only [List.length_set, List.length_append, List.length_replicate]
  omega

theorem Spares.setBlockCode {code : Bytes} (h : vm.setBlockCode j code = some vm') (hne : j ≠ b) :
    Spares b vm vm' := by
  obtain ⟨hblocks, hvariables⟩ := setBlockCode_blocks h
  have hlen := length_setBlockCode h
  have hj := j.toNat_lt
  refine ⟨?_, by omega, fun _ => by omega, fun guid _ _ hg => by rwa [hvariables]⟩
  have hne' : j.toNat ≠ b.toNat := fun heq => hne (UInt8.toNat_inj.mp heq)
  rw [hblocks, List.getD_eq_getElem?_getD, List.getElem?_set_ne hne', List.getElem?_append,
    List.getD_eq_getElem?_getD]
  split
  · rfl
  next hout =>
    rw [List.getElem?_eq_none (Nat.not_lt.mp hout), List.getElem?_replicate]
    split <;> rfl

theorem Spares.clearBlockCode (vm : VM W H) (hne : j ≠ b) : Spares b vm (vm.clearBlockCode j) := by
  have hne' : j.toNat ≠ b.toNat := fun heq => hne (UInt8.toNat_inj.mp heq)
  refine ⟨?_, ?_, ?_, fun _ _ _ hg => hg⟩
  · rw [VM.clearBlockCode, List.getD_eq_getElem?_getD, List.getElem?_set_ne hne',
      List.getD_eq_getElem?_getD]
  · simp [VM.clearBlockCode]
  · simp [VM.clearBlockCode]

theorem Spares.dropBlock (vm : VM W H) (hne : j ≠ b) : Spares b vm (vm.dropBlock j) := by
  have hne' : j.toNat ≠ b.toNat := fun heq => hne (UInt8.toNat_inj.mp heq)
  have hblocks := (vm.dropBlock_fields j).1
  refine ⟨by rw [hblocks], by simp [hblocks], by simp [hblocks], ?_⟩
  intro guid hlow hhigh hg
  simp only [VM.dropBlock, VM.dropVariables, Nat.shiftLeft_eq]
  rwa [if_neg (by omega)]

end VM

section

variable {W H : Type} {f : VariableFactory W H} {vm vm' : VM W H} {b : UInt8}

theorem runPreamble_spares {j : UInt8} {bc : Bytes} {r : Verdict × VM W H}
    (h : runPreamble f vm j bc = some r) (hne : j ≠ b) : VM.Spares b vm r.2 := by
  obtain ⟨loaded, hload, hrun⟩ := Option.bind_eq_some_iff.mp h
  have hclear : VM.Keeps vm vm.clear := ⟨rfl, fun _ h => h⟩
  have hpreamble : VM.Keeps loaded (loaded.setPreamble true) := ⟨rfl, fun _ h => h⟩
  exact (((hclear.spares b).trans (.setBlockCode hload hne)).trans
    ((hpreamble.spares b).trans (.dropBlock _ hne))).trans ((VM.Keeps.executeBlock hrun).spares b)

/-- An event of another block, or an execution of any code, spares the block `b`. -/
theorem runnerStep_spares {e : RunnerEvent} (h : runnerStep f vm e = some vm')
    (hother : ∀ lb, e ≠ .compile b lb) : VM.Spares b vm vm' := by
  cases e with
  | compile j lb =>
    have hne : j ≠ b := fun heq => hother lb (heq ▸ rfl)
    simp only [runnerStep, compileBlock] at h
    split at h
    · cases h
      exact .clearBlockCode vm hne
    · split at h
      · obtain ⟨r, hr, rfl⟩ := Option.map_eq_some_iff.mp h
        exact runPreamble_spares hr hne
      · cases h
        exact (VM.Spares.dropBlock vm hne).trans (.clearBlockCode _ hne)
  | step j fuel =>
    obtain ⟨r, hr, rfl⟩ := Option.map_eq_some_iff.mp h
    have hclear : VM.Keeps vm (vm.clear.setPreamble false) := ⟨rfl, fun _ h => h⟩
    exact (hclear.trans (VM.Keeps.executeBlock hr)).spares b

/-- There are no more blocks than block numbers. -/
theorem runnerStep_few {e : RunnerEvent} (h : runnerStep f vm e = some vm')
    (hfew : vm.blocks.length ≤ 256) : vm'.blocks.length ≤ 256 := by
  obtain ⟨b, hother⟩ : ∃ b, ∀ lb, e ≠ .compile b lb := by
    cases e with
    | compile j lb =>
      refine ⟨j + 1, fun lb' heq => ?_⟩
      obtain ⟨hj, -⟩ := RunnerEvent.compile.inj heq
      exact absurd hj (by simp)
    | step j fuel => exact ⟨0, nofun⟩
  exact (runnerStep_spares h hother).few hfew

/-- The code of a block is loaded with its preamble. -/
theorem runPreamble_loaded {bc : Bytes} {r : Verdict × VM W H}
    (h : runPreamble f vm b bc = some r) :
    bc.length < 2 ^ 16 ∧ b.toNat < r.2.blocks.length ∧ r.2.blocks.getD b.toNat [] = bc ∧
      (vm.blocks.length ≤ 256 → r.2.blocks.length ≤ 256) := by
  obtain ⟨loaded, hload, hrun⟩ := Option.bind_eq_some_iff.mp h
  obtain ⟨hshort, hpresent, hcode, -⟩ := VM.setBlockCode_eq_some hload
  have hlen := VM.length_setBlockCode hload
  have hb := b.toNat_lt
  have hblocks : r.2.blocks = loaded.blocks :=
    (VM.Keeps.executeBlock hrun).blocks.trans ((loaded.setPreamble true).dropBlock_fields b).1
  rw [hblocks]
  refine ⟨hshort, hpresent, hcode, fun hfew => ?_⟩
  have hclear : vm.clear.blocks = vm.blocks := rfl
  rw [hlen, hclear]
  omega

end

end OpenmrnCue.Logic
