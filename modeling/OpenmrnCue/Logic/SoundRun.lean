import Mathlib.Data.List.TakeDrop
import OpenmrnCue.Logic.Execution
import OpenmrnCue.Logic.Sound

/-! Runs of sound code.  One lemma for each kind of instruction says what a round does to the stack
and to the pointer; `Ready` is what then holds before every round of a run of a sound program. -/

namespace OpenmrnCue.Logic

def VMError.isStackLength : VMError → Bool
  | stackLength .. => true
  | _ => false

def VMError.isUnknownGuid : VMError → Bool
  | unknownGuid _ => true
  | _ => false

namespace VM

variable {W H : Type} {f : VariableFactory W H} {vm : VM W H}

/-! ### Instructions that stay in their function -/

/-- The round moves the pointer over `len` bytes and calls nothing; no external variable is lost. -/
structure Quiet (vm vm' : VM W H) (len : Nat) : Prop where
  blocks : vm'.blocks = vm.blocks
  ipBlockNum : vm'.ipBlockNum = vm.ipBlockNum
  callStack : vm'.callStack = vm.callStack
  fp : vm'.fp = vm.fp
  accessError : vm'.accessError = vm.accessError
  ip : vm'.ip = vm.ip + len
  kept : ∀ guid, vm.externalVariables guid ≠ none → vm'.externalVariables guid ≠ none

theorem Quiet.withStack (stack : List Int32) (len : Nat) :
    Quiet vm ((vm.withStack stack).advance len) len :=
  ⟨rfl, rfl, rfl, rfl, rfl, rfl, fun _ h => h⟩

/-- An end that is neither a wrong stack length nor an unknown variable. -/
def Harmless (r : Verdict × VM W H) : Prop :=
  r.1 = .exception →
    ∃ err, r.2.error = some err ∧ err.isStackLength = false ∧ err.isUnknownGuid = false

theorem Harmless.fail {err : VMError} (hs : err.isStackLength = false)
    (hg : err.isUnknownGuid = false) :
    Harmless (Verdict.exception, { vm with error := some err }) := fun _ => ⟨err, rfl, hs, hg⟩

/-- The round is quiet, takes `a` words off the stack and pushes `b`, or it ends the run. -/
def Does (vm : VM W H) (len a b : Nat) : Step W H → Prop
  | .inl vm' => Quiet vm vm' len ∧ a ≤ vm.operandStack.length ∧
      vm'.operandStack.length + a = vm.operandStack.length + b
  | .inr r => Harmless r

theorem does_getFromStack {vm' : VM W H} {len a b : Nat} {insn : OpCode} {name : String}
    {k : Int32 → VM W H → Step W H}
    (hk : ∀ stack v, vm'.operandStack = stack ++ [v] → Does vm len a b (k v (vm'.withStack stack))) :
    Does vm len a b (vm'.getFromStack insn name k) := by
  rcases List.eq_nil_or_concat vm'.operandStack with hnil | ⟨stack, v, hstack⟩
  · simp only [getFromStack, hnil, List.getLast?_nil]
    exact Harmless.fail rfl rfl
  · rw [List.concat_eq_append] at hstack
    rw [getFromStack_eq hstack]
    exact hk stack v hstack

theorem does_binary (insn : OpCode) (name : String) (op : Int32 → Int32 → Int32) :
    Does vm 1 2 1 ((vm.advance 1).binary insn name op) := by
  refine does_getFromStack fun stack v hv => ?_
  refine does_getFromStack fun stack' v' hv' => ?_
  obtain rfl : stack = stack' ++ [v'] := hv'
  have hv : vm.operandStack = stack' ++ [v'] ++ [v] := hv
  exact ⟨.withStack _ 1, by simp [hv], by simp [hv, withStack]⟩

theorem does_division (insn : OpCode) (op : Int32 → Int32 → Int32) :
    Does vm 1 2 1 ((vm.advance 1).division insn op) := by
  refine does_getFromStack fun stack v hv => ?_
  refine does_getFromStack fun stack' v' hv' => ?_
  obtain rfl : stack = stack' ++ [v'] := hv'
  have hv : vm.operandStack = stack' ++ [v'] ++ [v] := hv
  split
  · exact Harmless.fail rfl rfl
  · exact ⟨.withStack _ 1, by simp [hv], by simp [hv, withStack]⟩

/-- A new variable takes none away. -/
theorem kept_update {external : UInt32 → Option (Variable H)} (guid : UInt32) (v : Variable H) :
    ∀ guid', external guid' ≠ none → Function.update external guid (some v) guid' ≠ none := by
  intro guid' h
  by_cases hg : guid' = guid
  · subst hg
    simp
  · rwa [Function.update_of_ne hg]

/-- A variable that is read keeps the machine as it is, or reports an access error. -/
theorem readVariable_cases {vm' : VM W H} {ref : VMVariableReference} {v : Int32}
    (h : vm.readVariable f ref = some (v, vm')) :
    (Quiet vm vm' 0 ∧ vm'.operandStack.length = vm.operandStack.length) ∨
      (vm'.accessError = true ∧ ∃ ip, vm'.error = some (.variableAccess ip)) := by
  unfold readVariable at h
  split at h
  · split at h
    · cases h
      exact .inr ⟨rfl, _, rfl⟩
    · cases h
      exact .inl ⟨⟨rfl, rfl, rfl, rfl, rfl, rfl, fun _ h => h⟩, rfl⟩
  · split at h
    · cases h
    · cases h
      exact .inl ⟨⟨rfl, rfl, rfl, rfl, rfl, rfl, fun _ h => h⟩, rfl⟩
    · cases h
      split
      · exact .inr ⟨rfl, _, rfl⟩
      · exact .inl ⟨⟨rfl, rfl, rfl, rfl, rfl, rfl, fun _ h => h⟩, rfl⟩

/-- So does a variable that is written, but for its value. -/
theorem writeVariable_cases {vm' : VM W H} {ref : VMVariableReference} {v : Int32}
    (h : vm.writeVariable f ref v = some vm') :
    (Quiet vm vm' 0 ∧ vm'.operandStack.length = vm.operandStack.length) ∨
      (vm'.accessError = true ∧ ∃ ip, vm'.error = some (.variableAccess ip)) := by
  unfold writeVariable at h
  split at h
  · split at h
    · cases h
      exact .inr ⟨rfl, _, rfl⟩
    · cases h
      exact .inl ⟨⟨rfl, rfl, rfl, rfl, rfl, rfl, fun _ h => h⟩, by simp⟩
  · split at h
    · cases h
    · cases h
      exact .inl ⟨⟨rfl, rfl, rfl, rfl, rfl, rfl, kept_update _ _⟩, rfl⟩
    · cases h
      split
      · exact .inr ⟨rfl, _, rfl⟩
      · exact .inl ⟨⟨rfl, rfl, rfl, rfl, rfl, rfl, fun _ h => h⟩, rfl⟩

/-- The instructions without an operand. -/
theorem step_insn {op : OpCode} {a b : Nat} {tail : Bytes} (heffect : op.effect = some (a, b))
    (hrest : vm.rest = op.toByte :: tail) (hok : vm.accessError = false) :
    Does vm 1 a b (step f vm) := by
  rw [step_of_rest hrest]
  cases op with
  | pushConstant0 | pushConstant1 | ifPreamble | printStr =>
    cases heffect
    exact ⟨⟨rfl, rfl, rfl, rfl, rfl, rfl, fun _ h => h⟩, by simp, by simp⟩
  | pushTop =>
    cases heffect
    simp only [executeInsn, advance_operandStack]
    split
    · exact Harmless.fail rfl rfl
    · next hlast =>
      obtain ⟨stack, hstack⟩ := List.getLast?_eq_some_iff.mp hlast
      exact ⟨.withStack _ 1, by simp [hstack], by simp⟩
  | popOp =>
    cases heffect
    rw [executeInsn, advance_operandStack]
    by_cases hne : vm.operandStack = []
    · rw [if_pos hne]
      exact Harmless.fail rfl rfl
    · rw [if_neg hne]
      have hpos := List.length_pos_of_ne_nil hne
      exact ⟨.withStack _ 1, hpos, by simp; omega⟩
  | printNum =>
    cases heffect
    rw [executeInsn]
    refine does_getFromStack fun stack v hv => ?_
    have hv : vm.operandStack = stack ++ [v] := hv
    exact ⟨⟨rfl, rfl, rfl, rfl, rfl, rfl, fun _ h => h⟩, by simp [hv], by simp [hv]⟩
  | indirectLoad =>
    cases heffect
    rw [executeInsn]
    refine does_getFromStack fun stack v hv => ?_
    have hv : vm.operandStack = stack ++ [v] := hv
    split
    · exact Harmless.fail rfl rfl
    · split
      · intro h
        cases h
      · next hread =>
        rcases readVariable_cases hread with ⟨hquiet, hlen⟩ | ⟨haccess, ip, herr⟩
        · rw [if_neg (Bool.eq_false_iff.mp (hquiet.accessError.trans hok))]
          have hlen : _ = stack.length := hlen
          exact ⟨⟨hquiet.blocks, hquiet.ipBlockNum, hquiet.callStack, hquiet.fp,
            hquiet.accessError, hquiet.ip, hquiet.kept⟩, by simp [hv], by simp [hv, hlen]⟩
        · rw [if_pos haccess]
          exact fun _ => ⟨_, herr, rfl, rfl⟩
  | indirectStore =>
    cases heffect
    rw [executeInsn]
    refine does_getFromStack fun stack v hv => ?_
    refine does_getFromStack fun stack' v' hv' => ?_
    obtain rfl : stack = stack' ++ [v'] := hv'
    have hv : vm.operandStack = stack' ++ [v'] ++ [v] := hv
    split
    · exact Harmless.fail rfl rfl
    · split
      · intro h
        cases h
      · next hwrite =>
        rcases writeVariable_cases hwrite with ⟨hquiet, hlen⟩ | ⟨haccess, ip, herr⟩
        · rw [if_neg (Bool.eq_false_iff.mp (hquiet.accessError.trans hok))]
          have hlen : _ = stack'.length := hlen
          exact ⟨⟨hquiet.blocks, hquiet.ipBlockNum, hquiet.callStack, hquiet.fp,
            hquiet.accessError, hquiet.ip, hquiet.kept⟩, by simp [hv], by simp [hv, hlen]⟩
        · rw [if_pos haccess]
          exact fun _ => ⟨_, herr, rfl, rfl⟩
  | boolNot | boolProject =>
    cases heffect
    rw [executeInsn]
    refine does_getFromStack fun stack v hv => ?_
    have hv : vm.operandStack = stack ++ [v] := hv
    exact ⟨.withStack _ 1, by simp [hv], by simp [hv]⟩
  | numericPlus | numericMinus | numericMul | boolEq | boolNeq | numericLeq | numericGeq
  | numericLt | numericGt | numericEq | numericNeq =>
    cases heffect
    exact does_binary _ _ _
  | numericDiv | numericMod =>
    cases heffect
    exact does_division _ _
  | _ => cases heffect

/-- The instructions with an integer. -/
theorem step_insnArg {op : OpCode} {a b : Nat} {arg : Int} {tail : Bytes}
    (heffect : op.effectArg = some (a, b)) (hrest : vm.rest = opArg op arg ++ tail) :
    Does vm (opArg op arg).length a b (step f vm) := by
  rw [step_of_rest (rest_opArg hrest)]
  cases op with
  | loadFpRel =>
    cases heffect
    rw [executeInsn, getVarint_opArg hrest]
    split
    · exact Harmless.fail rfl rfl
    · exact ⟨.withStack _ _, by simp, by simp⟩
  | storeFpRel =>
    cases heffect
    rw [executeInsn]
    refine does_getFromStack fun stack v hv => ?_
    have hv : vm.operandStack = stack ++ [v] := hv
    rw [withStack_advance, getVarint_opArg (show (vm.withStack stack).rest = _ from hrest)]
    simp only
    split
    · exact Harmless.fail rfl rfl
    · exact ⟨.withStack _ _, by simp [hv], by simp [hv]⟩
  | createIndirectVar =>
    cases heffect
    rw [executeInsn, getVarint_opArg hrest]
    exact ⟨⟨rfl, rfl, rfl, rfl, rfl, rfl, fun _ h => h⟩, by simp, by simp [pushReference]⟩
  | createStaticVar =>
    cases heffect
    rw [executeInsn, getVarint_opArg hrest]
    simp only
    split
    · exact ⟨⟨rfl, rfl, rfl, rfl, rfl, rfl, kept_update _ _⟩, by simp, by simp [pushReference]⟩
    · exact ⟨⟨rfl, rfl, rfl, rfl, rfl, rfl, fun _ h => h⟩, by simp, by simp [pushReference]⟩
  | _ => cases heffect

theorem step_pushConstant {value : Int} {tail : Bytes}
    (hrest : vm.rest = opArg .pushConstant value ++ tail) :
    step f vm = .inl ((vm.push (.ofInt value)).advance (opArg .pushConstant value).length) := by
  rw [step_of_rest (rest_opArg hrest), executeInsn, getVarint_opArg hrest]
  rfl

theorem step_importVar {guid : Int} {stack : List Int32} {tail : Bytes}
    (hrest : vm.rest = OpCode.importVar.toByte :: tail)
    (hstack : vm.operandStack = stack ++ [Int32.ofInt guid, 0]) :
    (vm.externalVariables (Int32.ofInt guid).toUInt32 = none ∧
      step f vm = ((vm.advance 1).withStack stack).fail (.unknownGuid (.ofInt guid))) ∨
    Does vm 1 2 1 (step f vm) := by
  have htop : (vm.advance 1).operandStack = (stack ++ [Int32.ofInt guid]) ++ [0] := by
    simpa using hstack
  rw [step_of_rest hrest, executeInsn, getFromStack_eq htop, getFromStack_eq rfl]
  split
  · next hnone => exact .inl ⟨hnone, rfl⟩
  · exact .inr ⟨⟨rfl, rfl, rfl, rfl, rfl, rfl, fun _ h => h⟩, by simp [hstack],
      by simp [hstack, pushReference]⟩

/-- A round of `CREATE_VAR` with the pointer after its operands. -/
theorem step_createVar {guid numStates : Int} {tail : Bytes}
    (hrest : vm.rest = Item.bytes (.createVar guid numStates) ++ tail) :
    Does vm (Item.bytes (.createVar guid numStates)).length 0 0 (step f vm) := by
  have hrest1 : vm.rest = opArg .createVar guid ++ (appendVarint (.ofInt numStates) ++ tail) := by
    simpa [Item.bytes] using hrest
  rw [step_of_rest (rest_opArg hrest1), executeInsn, getVarint_opArg hrest1,
    getVarint_eq (rest_advance hrest1)]
  split
  · exact Harmless.fail rfl rfl
  · refine ⟨⟨rfl, rfl, rfl, rfl, rfl, ?_, kept_update _ _⟩, by simp, by simp⟩
    simp [Item.bytes, Nat.add_assoc]

/-- `LEAVE` drops words, if they are there. -/
theorem step_leave_cases {n : Nat} {tail : Bytes} (hrest : vm.rest = opArg .leave n ++ tail) :
    (∃ stack, step f vm = .inl ((vm.withStack stack).advance (opArg .leave n).length) ∧
      (n < 2 ^ 31 → stack.length + n = vm.operandStack.length)) ∨
    ∃ r, step f vm = .inr r ∧ Harmless r := by
  rw [step_of_rest (rest_opArg hrest), executeInsn, getVarint_opArg hrest]
  rw [advance_operandStack]
  by_cases hneg : Int32.ofInt n < 0
  · rw [if_pos hneg]
    exact .inr ⟨_, rfl, Harmless.fail rfl rfl⟩
  · rw [if_neg hneg]
    by_cases hroom : vm.operandStack.length < (Int32.ofInt n).toInt
    · rw [if_pos hroom]
      exact .inr ⟨_, rfl, Harmless.fail rfl rfl⟩
    · rw [if_neg hroom]
      refine .inl ⟨_, rfl, fun hn => ?_⟩
      rw [toInt_ofInt_natCast hn] at hroom ⊢
      simp only [Int.toNat_natCast, List.length_take]
      omega

theorem step_checkStackLength_cases {n : Int} {tail : Bytes}
    (hrest : vm.rest = opArg .checkStackLength n ++ tail) :
    step f vm = .inl (vm.advance (opArg .checkStackLength n).length) ∨
    ∃ ip size, step f vm = .inr (.exception,
      { vm.advance (opArg .checkStackLength n).length with
        error := some (.stackLength ip (.ofInt n) size) }) := by
  rw [step_of_rest (rest_opArg hrest), executeInsn, getVarint_opArg hrest]
  simp only
  split
  · exact .inr ⟨_, _, rfl⟩
  · exact .inl rfl

/-- A stack of another length does not pass the check, however the operand is encoded. -/
theorem step_checkStackLength_fails {operand : Int32} {tail rest : Bytes}
    (hrest : vm.rest = OpCode.checkStackLength.toByte :: tail)
    (hparse : parseVarint tail = some (operand, rest))
    (hne : vm.operandStack.length ≠ toUnsigned (vm.fp + operand.toInt)) :
    ∃ vm' : VM W H, step f vm = vm'.fail (.stackLength vm'.getIp operand vm'.operandStack.length) := by
  rw [step_of_rest hrest, executeInsn, getVarint, rest_advance_one hrest, hparse]
  exact ⟨_, if_pos hne⟩

/-- The conditional jumps take a word off the stack and go on with `code` or behind it. -/
theorem step_testJump {op : OpCode} {code tail : Bytes}
    (hop : op = .testJumpIfFalse ∨ op = .testJumpIfTrue)
    (hrest : vm.rest = opArg op code.length ++ (code ++ tail))
    (hshort : vm.code.length < 2 ^ 16) :
    (∃ stack v len, vm.operandStack = stack ++ [v] ∧ (len = 0 ∨ len = code.length) ∧
      step f vm = .inl ((vm.withStack stack).advance ((opArg op code.length).length + len))) ∨
    ∃ r, step f vm = .inr r ∧ Harmless r := by
  have hlen := congrArg List.length hrest
  simp only [length_rest, List.length_append] at hlen
  have hstep : ∃ name takes, step f vm = (vm.advance 1).testJump op name takes := by
    rw [step_of_rest (rest_opArg hrest)]
    rcases hop with rfl | rfl
    · exact ⟨_, _, rfl⟩
    · exact ⟨_, _, rfl⟩
  obtain ⟨name, takes, hstep⟩ := hstep
  rw [hstep]
  rcases List.eq_nil_or_concat vm.operandStack with hnil | ⟨stack, v, hstack⟩
  · have hfail : (vm.advance 1).testJump op name takes =
        (vm.advance (opArg op code.length).length).fail
          (.stackUnderflow (vm.advance (opArg op code.length).length).getIp op.toByte name) := by
      rw [testJump, getVarint_opArg hrest]
      simp only [getFromStack, advance_operandStack, hnil, List.getLast?_nil]
    exact .inr ⟨_, hfail, Harmless.fail rfl rfl⟩
  · rw [List.concat_eq_append] at hstack
    refine .inl ⟨stack, v, _, hstack, ?_, testJump_eq hrest (by omega) hstack name takes⟩
    split
    · exact .inr rfl
    · exact .inl rfl

/-! ### Jumps -/

theorem getIp_eq (h : vm.ip < 2 ^ 16) : vm.getIp = vm.ipBlockNum * 2 ^ 16 + vm.ip := by
  rw [getIp, blockCodeIpShift, ← Nat.shiftLeft_add_eq_or_of_lt h, Nat.shiftLeft_eq]

/-- A jump to an offset that the block has. -/
theorem jump_eq (vm : VM W H) {b ofs : Nat} (hb : b < vm.blocks.length) (hofs : ofs < 2 ^ 16)
    (hlen : ofs ≤ (vm.blocks.getD b []).length) :
    vm.jump (b * 2 ^ 16 + ofs) = { vm with ipBlockNum := b, ip := ofs } := by
  have hblock : (b * 2 ^ 16 + ofs) >>> blockCodeIpShift = b := by
    rw [Nat.shiftRight_eq_div_pow, blockCodeIpShift]
    omega
  have hoffset : (b * 2 ^ 16 + ofs) % 2 ^ blockCodeIpShift = ofs := by
    rw [blockCodeIpShift]
    omega
  simp only [jump, jump?, hblock, hoffset]
  rw [if_neg (by omega), if_neg (by omega)]
  rfl

/-- A jump to a block that is not there does nothing. -/
theorem jump_of_no_block {target : Nat} (h : vm.blocks.length ≤ target >>> blockCodeIpShift) :
    vm.jump target = vm := by
  simp only [jump, jump?]
  rw [if_pos h]
  rfl

/-- A jump changes nothing but the pointer. -/
theorem jump_cases (vm : VM W H) (target : Nat) :
    vm.jump target = vm ∨ vm.jump target =
      { vm with ipBlockNum := target >>> blockCodeIpShift, ip := target % 2 ^ blockCodeIpShift } := by
  simp only [jump, jump?]
  split
  · exact .inl rfl
  · split
    · exact .inl rfl
    · exact .inr rfl

/-- `JUMP` over `code`. -/
theorem step_jump_over {code tail : Bytes}
    (hrest : vm.rest = opArg .jump code.length ++ (code ++ tail))
    (hshort : vm.code.length < 2 ^ 16) (hblock : vm.ipBlockNum < vm.blocks.length)
    (hsmall : vm.ipBlockNum < 2 ^ 16) :
    step f vm = .inl (vm.advance ((opArg .jump code.length).length + code.length)) := by
  have hrest' : vm.rest = (opArg .jump code.length ++ code) ++ tail := by simpa using hrest
  have hlen := ip_add_length_le hrest' (by simp [opArg])
  rw [List.length_append, ← Nat.add_assoc] at hlen
  have hjump : (vm.advance (opArg .jump code.length).length).jump
      (vm.ipBlockNum * 2 ^ 16 + (vm.ip + (opArg .jump code.length).length + code.length)) =
      vm.advance ((opArg .jump code.length).length + code.length) := by
    rw [jump_eq (vm.advance _) hblock (by omega) hlen]
    simp [advance, Nat.add_assoc]
  rw [step_of_rest (rest_opArg hrest), executeInsn, getVarint_opArg hrest,
    toInt_ofInt_natCast (by omega), getIp_eq (by rw [advance_ip]; omega), ← Int.natCast_add,
    toUnsigned_natCast (by simp only [advance]; omega), Nat.add_assoc]
  exact congrArg Sum.inl hjump

/-- A new frame, which returns to the pointer. -/
def pushFrame (vm : VM W H) (fp : Nat) : VM W H :=
  { vm with
    callStack :=
      { fp, vp := vm.variableStack.length, returnAddress := vm.getIp } :: vm.callStack
    fp }

/-- `CALL` makes a frame and jumps to the address on the stack. -/
theorem step_call {n addr : Int} {tail : Bytes} {stack : List Int32}
    {top : ExecutionEnvironment} {frames : List ExecutionEnvironment}
    (hrest : vm.rest = opArg .call n ++ tail)
    (hstack : vm.operandStack = stack ++ [Int32.ofInt addr])
    (hframes : vm.callStack = top :: frames) (hfp : vm.fp = top.fp) :
    step f vm = .inl ((((vm.withStack stack).advance (opArg .call n).length).pushFrame
      (toUnsigned (stack.length - (Int32.ofInt n).toInt))).jump
        (Int32.ofInt addr).toUInt32.toNat) := by
  rw [step_of_rest (rest_opArg hrest), executeInsn, advance_callStack, hframes]
  simp only [advance_fp, hfp]
  rw [if_neg (by simp), getFromStack_eq (show (vm.advance 1).operandStack = _ from hstack),
    withStack_advance, getVarint_opArg (show (vm.withStack stack).rest = _ from hrest)]
  rfl

/-- `RET` takes the frame away, with everything on the stack above its frame pointer. -/
theorem step_ret {s ss : ExecutionEnvironment} {frames : List ExecutionEnvironment} {b ofs : Nat}
    {tail : Bytes} (hrest : vm.rest = OpCode.ret.toByte :: tail)
    (hframes : vm.callStack = s :: ss :: frames) (hreturn : s.returnAddress = b * 2 ^ 16 + ofs)
    (hb : b < vm.blocks.length) (hofs : ofs < 2 ^ 16)
    (hlen : ofs ≤ (vm.blocks.getD b []).length) :
    step f vm = .inl { vm with
      variableStack := vm.variableStack.take s.vp
      operandStack := vm.operandStack.takeD s.fp 0
      callStack := ss :: frames
      fp := ss.fp
      ipBlockNum := b
      ip := ofs } := by
  have hjump := jump_eq { vm.advance 1 with
    variableStack := vm.variableStack.take s.vp
    operandStack := vm.operandStack.takeD s.fp 0 } hb hofs hlen
  rw [← hreturn] at hjump
  rw [step_of_rest hrest]
  obtain ⟨_, callStack, _, _, _, _, _, _, _, _, _, _, _, _, _, _⟩ := vm
  obtain rfl : callStack = _ := hframes
  exact congrArg (fun vm : VM W H => Sum.inl { vm with callStack := ss :: frames, fp := ss.fp }) hjump

end VM

/-! ### The invariant of a run -/

/-- The code at the offset `ofs` is `items`, and after them the code ends if it is `main` code. -/
def Within (e : Emitted) (main : Bool) (ofs : Nat) (items : List Item) : Prop :=
  ∃ pre post, e.items = pre ++ (items ++ post) ∧ ofs = (itemBytes pre).length ∧
    (main = true → post = [])

theorem Within.append {e : Emitted} {main : Bool} {ofs : Nat} {code items : List Item}
    (h : Within e main ofs (code ++ items)) : Within e main (ofs + (itemBytes code).length) items := by
  obtain ⟨pre, post, hitems, rfl, hmain⟩ := h
  exact ⟨pre ++ code, post, by simp [hitems], by simp, hmain⟩

theorem Within.cons {e : Emitted} {main : Bool} {ofs : Nat} {item : Item} {items : List Item}
    (h : Within e main ofs (item :: items)) : Within e main (ofs + item.bytes.length) items := by
  simpa using Within.append (show Within e main ofs ([item] ++ items) from h)

section

variable (b : Nat) (e : Emitted) (imports : Int → Prop) (tracked : Bool)

/-- The program is in the block `b`.  There is no block at the address -1 that stands for none. -/
structure Loaded {W H : Type} (vm : VM W H) : Prop where
  code : vm.blocks.getD b [] = itemBytes e.items
  short : (itemBytes e.items).length < 2 ^ 16
  present : b < vm.blocks.length
  small : b < 2 ^ 16
  few : tracked = false → vm.blocks.length < 2 ^ 16

/-- The heights of the frame that is being executed, with `len` bytes of code to go.  The code calls
only functions that end before `lim`, which bounds the stack. -/
def Accounted (size fp k len lim : Nat) : Prop :=
  tracked = true → size = fp + k ∧ size + len + lim ≤ 2 ^ 17

/-- Execution can go on at `ofs`, with `size` words on the stack. -/
def Continues (ofs size fp : Nat) : Prop :=
  ∃ main lim k items, Within e main ofs items ∧
    Sound e.functions imports tracked main lim k [] items ∧
    Accounted tracked size fp k (itemBytes items).length lim

/-- Execution can go on after every call that has not returned. -/
def Frames : List ExecutionEnvironment → Prop
  | s :: ss :: frames =>
    (∃ ofs, s.returnAddress = b * 2 ^ 16 + ofs ∧ Continues e imports tracked ofs s.fp ss.fp) ∧
      Frames (ss :: frames)
  | _ => True

/-- What holds before every round in the block `b`. -/
structure Ready {W H : Type} (vm : VM W H) : Prop where
  loaded : Loaded b e tracked vm
  block : vm.ipBlockNum = b
  accessible : vm.accessError = false
  top : ∃ top frames, vm.callStack = top :: frames ∧ vm.fp = top.fp
  frames : Frames b e imports tracked vm.callStack
  here : ∃ main lim k ks items, Within e main vm.ip items ∧
    Sound e.functions imports tracked main lim k ks items ∧
    (∃ stack, vm.operandStack = stack ++ (ks.map Int32.ofInt).reverse) ∧
    Accounted tracked vm.operandStack.length vm.fp k (itemBytes items).length lim

/-- What a round from `vm` leads to. -/
def Proceeds {W H : Type} (vm : VM W H) : Step W H → Prop
  | .inl vm' =>
    (∀ guid, vm.externalVariables guid ≠ none → vm'.externalVariables guid ≠ none) ∧
      (vm'.ipBlockNum = b ∨ b = 0 → Ready b e imports tracked vm')
  | .inr r => r.1 = .exception → ∃ err, r.2.error = some err ∧
      (tracked = true → err.isStackLength = false) ∧
      (err.isUnknownGuid = true →
        ∃ guid, imports guid ∧ vm.externalVariables (Int32.ofInt guid).toUInt32 = none)

end

/-- Code of `bytes` bytes takes `a` words off the stack and pushes `c`. -/
theorem Accounted.move {tracked : Bool} {size size' fp k len len' lim a c : Nat} (bytes : Nat)
    (h : Accounted tracked size fp (k + a) len lim) (hsize : tracked = true → size' + a = size + c)
    (hlen : bytes + len' ≤ len) (hc : c ≤ a + bytes) :
    Accounted tracked size' fp (k + c) len' lim := by
  intro ht
  have := h ht
  have := hsize ht
  omega

section

variable {W H : Type} {f : VariableFactory W H} {vm : VM W H} {b : Nat} {e : Emitted}
  {imports : Int → Prop} {tracked : Bool}

theorem Within.rest {main : Bool} {items : List Item} (h : Within e main vm.ip items)
    (hloaded : Loaded b e tracked vm) (hblock : vm.ipBlockNum = b) :
    ∃ post, vm.rest = itemBytes items ++ itemBytes post ∧ (main = true → post = []) := by
  obtain ⟨pre, post, hitems, hip, hmain⟩ := h
  refine ⟨post, ?_, hmain⟩
  rw [VM.rest, VM.code, hblock, hloaded.code, hitems, hip]
  simp

theorem Proceeds.of_harmless {r : Verdict × VM W H} (h : VM.Harmless r) :
    Proceeds b e imports tracked vm (.inr r) := by
  intro hr
  obtain ⟨err, herr, hs, hg⟩ := h hr
  exact ⟨err, herr, fun _ => hs, by simp [hg]⟩

/-- A quiet round ends in a good state if the code there is sound. -/
theorem Ready.quiet (h : Ready b e imports tracked vm) {vm' : VM W H} {len : Nat}
    (hq : VM.Quiet vm vm' len) {main : Bool} {lim k : Nat} {ks : List Int} {items : List Item}
    (hw : Within e main (vm.ip + len) items)
    (hs : Sound e.functions imports tracked main lim k ks items)
    (hks : ∃ stack, vm'.operandStack = stack ++ (ks.map Int32.ofInt).reverse)
    (hacc : Accounted tracked vm'.operandStack.length vm.fp k (itemBytes items).length lim) :
    Proceeds b e imports tracked vm (.inl vm') := by
  refine ⟨hq.kept, fun _ => ⟨?_, by rw [hq.ipBlockNum, h.block], by rw [hq.accessError, h.accessible],
    by rw [hq.callStack, hq.fp]; exact h.top, by rw [hq.callStack]; exact h.frames,
    main, lim, k, ks, items, by rw [hq.ip]; exact hw, hs, hks, by rw [hq.fp]; exact hacc⟩⟩
  exact ⟨by rw [hq.blocks, h.loaded.code], h.loaded.short, by rw [hq.blocks]; exact h.loaded.present,
    h.loaded.small, by rw [hq.blocks]; exact h.loaded.few⟩

/-- The rounds that take words off the stack and push others. -/
theorem Ready.does (h : Ready b e imports tracked vm) (item : Item) {a c : Nat} {step : Step W H}
    (hd : VM.Does vm item.bytes.length a c step) (hc : c ≤ a + item.bytes.length) {main : Bool}
    {lim k : Nat} {items : List Item} (hw : Within e main vm.ip (item :: items))
    (hs : Sound e.functions imports tracked main lim (k + c) [] items)
    (hacc : Accounted tracked vm.operandStack.length vm.fp (k + a)
      (itemBytes (item :: items)).length lim) :
    Proceeds b e imports tracked vm step := by
  cases step with
  | inr r => exact .of_harmless hd
  | inl vm' =>
    obtain ⟨hq, -, hlen⟩ := hd
    exact h.quiet hq hw.cons hs ⟨vm'.operandStack, by simp⟩
      (hacc.move _ (fun _ => hlen) (by simp) hc)

theorem Within.le {main : Bool} {ofs : Nat} {items : List Item} (h : Within e main ofs items) :
    ofs + (itemBytes items).length ≤ (itemBytes e.items).length := by
  obtain ⟨pre, post, hitems, rfl, -⟩ := h
  simp [hitems]

theorem toNat_toUInt32_ofInt (i : Int) : (Int32.ofInt i).toUInt32.toNat = toUnsigned i := by
  change (BitVec.ofInt 32 i).toNat = _
  rw [BitVec.toNat_ofInt]
  rfl

/-- The frame that a call makes returns behind it. -/
theorem Ready.frames_pushFrame (h : Ready b e imports tracked vm) {stack : List Int32}
    {len fp : Nat} {main : Bool} {lim k : Nat} {items : List Item}
    (hw : Within e main (vm.ip + len) items)
    (hs : Sound e.functions imports tracked main lim k [] items)
    (hacc : Accounted tracked fp vm.fp k (itemBytes items).length lim) :
    Frames b e imports tracked (((vm.withStack stack).advance len).pushFrame fp).callStack := by
  obtain ⟨top, frames, hframes, hfp⟩ := h.top
  have hgood := h.frames
  have hip : vm.ip + len < 2 ^ 16 := by
    have := hw.le
    have := h.loaded.short
    omega
  simp only [VM.pushFrame, VM.advance, VM.withStack, hframes] at hgood ⊢
  refine ⟨⟨vm.ip + len, ?_, main, lim, k, items, hw, hs, by rwa [← hfp]⟩, hgood⟩
  rw [← h.block]
  exact VM.getIp_eq (show (vm.advance len).ip < 2 ^ 16 from hip)

/-- `CALL` enters a function, or stays where it is if there is none at the address. -/
theorem Ready.call (h : Ready b e imports tracked vm) (hprog : SoundProgram imports tracked e)
    (hb : tracked = true → b = 0) {main : Bool} {lim k n : Nat} {addr : Int} {ks : List Int}
    {items : List Item} (hw : Within e main vm.ip (.insnArg .call n :: items))
    (hcallee : Callee e.functions tracked lim addr n)
    (hs : Sound e.functions imports tracked main lim k [] items)
    (hks : ∃ stack, vm.operandStack = stack ++ ((addr :: ks).map Int32.ofInt).reverse)
    (hacc : Accounted tracked vm.operandStack.length vm.fp (k + n + 1)
      (itemBytes (.insnArg .call n :: items)).length lim) :
    Proceeds b e imports tracked vm (VM.step f vm) := by
  obtain ⟨post, hrest, -⟩ := hw.rest h.loaded h.block
  obtain ⟨stack, hstack⟩ : ∃ stack, vm.operandStack = stack ++ [Int32.ofInt addr] := by
    obtain ⟨stack, hstack⟩ := hks
    exact ⟨stack ++ (ks.map Int32.ofInt).reverse, by simp [hstack]⟩
  obtain ⟨top, frames, hframes, hfp⟩ := h.top
  have hrest' : vm.rest = opArg .call n ++ (itemBytes items ++ itemBytes post) := by
    simpa [Item.bytes] using hrest
  have hw' : Within e main (vm.ip + (opArg .call n).length) items := hw.cons
  -- The frame pointer of the function, if the heights are right.
  have hframe : tracked = true →
      toUnsigned (stack.length - (Int32.ofInt n).toInt) = vm.fp + k ∧
        stack.length = vm.fp + k + n ∧
        stack.length + (itemBytes items).length + lim ≤ 2 ^ 17 := by
    intro ht
    obtain ⟨hsize, hbound⟩ := hacc ht
    have hlen : vm.operandStack.length = stack.length + 1 := by simp [hstack]
    simp only [itemBytes_cons, List.length_append] at hbound
    rw [VM.toInt_ofInt_natCast (by omega)]
    exact ⟨by unfold toUnsigned; omega, by omega, by omega⟩
  rw [VM.step_call hrest' hstack hframes hfp]
  generalize toUnsigned (stack.length - (Int32.ofInt n).toInt) = fp at hframe ⊢
  have hgood : Frames b e imports tracked
      (((vm.withStack stack).advance (opArg .call n).length).pushFrame fp).callStack :=
    h.frames_pushFrame hw' hs fun ht => by
      have := hframe ht
      omega
  -- A jump that fails goes on behind the call.
  have hstays : tracked = false → Ready b e imports tracked
      (((vm.withStack stack).advance (opArg .call n).length).pushFrame fp) := fun ht =>
    ⟨⟨h.loaded.code, h.loaded.short, h.loaded.present, h.loaded.small, h.loaded.few⟩, h.block, h.accessible,
      ⟨_, _, rfl, rfl⟩, hgood, main, lim, k, [], items, hw', hs, ⟨stack, by simp [VM.pushFrame]⟩,
      by simp [Accounted, ht]⟩
  rw [toNat_toUInt32_ofInt]
  rcases hcallee with ⟨cf, hcf, rfl, hfin, hargs⟩ | ⟨rfl, ht⟩
  · obtain ⟨pre, post, hitems, haddr, -⟩ := hprog.located cf hcf
    have hbody : Within e false cf.address cf.body :=
      ⟨pre, post, by simp [hitems], by omega, nofun⟩
    have hle := hbody.le
    have hshort := h.loaded.short
    rw [VM.toUnsigned_natCast (by omega)]
    by_cases hzero : b = 0
    · subst hzero
      have hofs : cf.address ≤ (vm.blocks.getD 0 []).length := by
        rw [h.loaded.code]
        omega
      have hjump := VM.jump_eq (b := 0)
        (((vm.withStack stack).advance (opArg .call n).length).pushFrame fp)
        h.loaded.present (show cf.address < 2 ^ 16 by omega) hofs
      rw [Nat.zero_mul, Nat.zero_add] at hjump
      rw [hjump]
      refine ⟨fun _ h => h, fun _ => ⟨⟨h.loaded.code, hshort, h.loaded.present, h.loaded.small, h.loaded.few⟩, rfl,
        h.accessible, ⟨_, _, rfl, rfl⟩, hgood, false, cf.address, cf.args.length, [], cf.body, hbody,
        hprog.bodies cf hcf, ⟨stack, by simp [VM.pushFrame]⟩, fun ht => ?_⟩⟩
      have := hframe ht
      have := hargs ht
      simp only [CompiledFunction.finish] at hfin
      exact ⟨by simp only [VM.pushFrame, VM.advance, VM.withStack]; omega,
        by simp only [VM.pushFrame, VM.advance, VM.withStack]; omega⟩
    · have ht : tracked = false := Bool.eq_false_iff.mpr fun ht => hzero (hb ht)
      rcases VM.jump_cases (((vm.withStack stack).advance (opArg .call n).length).pushFrame fp)
        cf.address with hj | hj
      · rw [hj]
        exact ⟨fun _ h => h, fun _ => hstays ht⟩
      · rw [hj]
        refine ⟨fun _ h => h, fun hor => absurd hor ?_⟩
        simp only [Nat.shiftRight_eq_div_pow, blockCodeIpShift]
        omega
  · rw [VM.jump_of_no_block]
    · exact ⟨fun _ h => h, fun _ => hstays ht⟩
    · exact Nat.le_of_lt_succ (h.loaded.few ht)

/-- `RET` goes back to the code behind the call. -/
theorem Ready.ret (h : Ready b e imports tracked vm) {tail : Bytes}
    (hrest : vm.rest = OpCode.ret.toByte :: tail) :
    Proceeds b e imports tracked vm (VM.step f vm) := by
  have hgood := h.frames
  obtain ⟨s, frames, hframes, -⟩ := h.top
  cases frames with
  | nil =>
    rw [VM.step_of_rest hrest, VM.executeInsn, VM.advance_callStack, hframes]
    exact .of_harmless (VM.Harmless.fail rfl rfl)
  | cons ss frames =>
    rw [hframes] at hgood
    obtain ⟨⟨ofs, hreturn, main, lim, k, items, hw, hs, hacc⟩, hgood⟩ := hgood
    have hle := hw.le
    have hshort := h.loaded.short
    have hlen : ofs ≤ (vm.blocks.getD b []).length := by
      rw [h.loaded.code]
      omega
    rw [VM.step_ret hrest hframes hreturn h.loaded.present (by omega) hlen]
    refine ⟨fun _ h => h, fun _ => ⟨⟨h.loaded.code, hshort, h.loaded.present, h.loaded.small, h.loaded.few⟩, rfl,
      h.accessible, ⟨_, _, rfl, rfl⟩, hgood, main, lim, k, [], items, hw, hs,
      ⟨_, (List.append_nil _).symm⟩, ?_⟩⟩
    rwa [List.takeD_length]

/-- The call that begins at the offset `ofs`. -/
def AtSite (e : Emitted) (ofs : Nat) (site : CallSite) : Prop :=
  ∃ pre post, e.items = pre ++ .callSite site :: post ∧ ofs = (itemBytes pre).length

/-- The marks of calls at the pointer have no bytes. -/
theorem Sound.skipSites {main : Bool} {lim k ofs : Nat} {ks : List Int} {items : List Item}
    (hw : Within e main ofs items) (hs : Sound e.functions imports tracked main lim k ks items)
    (hsites : tracked = true → ∀ site, AtSite e ofs site → site.Sound e.functions) :
    ∃ ks' items', Within e main ofs items' ∧
      Sound e.functions imports tracked main lim k ks' items' ∧ (ks' = ks ∨ ks' = []) ∧
      (itemBytes items').length = (itemBytes items).length ∧
      ∀ site rest, items' ≠ .callSite site :: rest := by
  induction hs with
  | site hsound _ ih =>
    have hw' := hw.cons
    obtain ⟨ks', items', hwi, hsi, hks, hlen, hno⟩ := ih hw'
    refine ⟨ks', items', hwi, hsi, .inr ?_, by simpa [Item.bytes] using hlen, hno⟩
    rcases hks with rfl | rfl <;> rfl
  | @excluded site k ks rest ht hunsound =>
    obtain ⟨pre, post, hitems, hofs, -⟩ := hw
    exact absurd (hsites ht site ⟨pre, rest ++ post, by simpa using hitems, hofs⟩) hunsound
  | done h => exact ⟨_, _, hw, .done h, .inl rfl, rfl, nofun⟩
  | insn h hrest => exact ⟨_, _, hw, .insn h hrest, .inl rfl, rfl, nofun⟩
  | insnArg h hrest => exact ⟨_, _, hw, .insnArg h hrest, .inl rfl, rfl, nofun⟩
  | constant hrest => exact ⟨_, _, hw, .constant hrest, .inl rfl, rfl, nofun⟩
  | check h hrest => exact ⟨_, _, hw, .check h hrest, .inl rfl, rfl, nofun⟩
  | leave h hrest => exact ⟨_, _, hw, .leave h hrest, .inl rfl, rfl, nofun⟩
  | jump hrest => exact ⟨_, _, hw, .jump hrest, .inl rfl, rfl, nofun⟩
  | testJump h hcode hrest => exact ⟨_, _, hw, .testJump h hcode hrest, .inl rfl, rfl, nofun⟩
  | importVar h hrest => exact ⟨_, _, hw, .importVar h hrest, .inl rfl, rfl, nofun⟩
  | call h hrest => exact ⟨_, _, hw, .call h hrest, .inl rfl, rfl, nofun⟩
  | ret => exact ⟨_, _, hw, .ret, .inl rfl, rfl, nofun⟩
  | terminate => exact ⟨_, _, hw, .terminate, .inl rfl, rfl, nofun⟩
  | loadString hrest => exact ⟨_, _, hw, .loadString hrest, .inl rfl, rfl, nofun⟩
  | createVar hrest => exact ⟨_, _, hw, .createVar hrest, .inl rfl, rfl, nofun⟩

theorem OpCode.effect_le {op : OpCode} {a c : Nat} (h : op.effect = some (a, c)) : c ≤ a + 1 := by
  cases op <;> cases h <;> decide

theorem OpCode.effectArg_le {op : OpCode} {a c : Nat} (h : op.effectArg = some (a, c)) :
    c ≤ a + 2 := by
  cases op <;> cases h <;> decide

theorem appendVarint_ne_nil (value : Int32) : appendVarint value ≠ [] := by
  intro h
  have := parseVarint_appendVarint value []
  rw [h, List.append_nil] at this
  cases this

theorem two_le_length_opArg (op : OpCode) (arg : Int) : 2 ≤ (opArg op arg).length := by
  have := List.length_pos_of_ne_nil (appendVarint_ne_nil (.ofInt arg))
  simp only [VM.length_opArg]
  omega

/-- A round from a good state. -/
theorem Ready.step (h : Ready b e imports tracked vm) (hprog : SoundProgram imports tracked e)
    (hb : tracked = true → b = 0)
    (hsites : tracked = true → ∀ site, AtSite e vm.ip site → site.Sound e.functions) :
    Proceeds b e imports tracked vm (VM.step f vm) := by
  obtain ⟨main, lim, k, ks, items, hw, hs, hks, hacc⟩ := h.here
  obtain ⟨ks, items, hw, hs, hks', hlen, hno⟩ := hs.skipSites hw hsites
  have hks : ∃ stack, vm.operandStack = stack ++ (ks.map Int32.ofInt).reverse := by
    rcases hks' with rfl | rfl
    · exact hks
    · exact ⟨vm.operandStack, by simp⟩
  rw [← hlen] at hacc
  obtain ⟨post, hrest, hmain⟩ := hw.rest h.loaded h.block
  have hcode : vm.code = itemBytes e.items := by rw [VM.code, h.block, h.loaded.code]
  have hshort : vm.code.length < 2 ^ 16 := by
    rw [hcode]
    exact h.loaded.short
  cases hs with
  | done hm =>
    obtain rfl := hmain hm
    rw [VM.step_of_eof (by simpa using hrest)]
    intro h
    cases h
  | @insn op _ _ _ _ _ heffect hnext =>
    exact h.does (.insn op)
      (VM.step_insn heffect (by simpa [Item.bytes] using hrest) h.accessible)
      (OpCode.effect_le heffect) hw hnext hacc
  | @insnArg op arg _ _ _ _ _ heffect hnext =>
    refine h.does (.insnArg op arg)
      (VM.step_insnArg heffect (by simpa [Item.bytes] using hrest)) ?_ hw hnext hacc
    exact Nat.le_trans (OpCode.effectArg_le heffect)
      (Nat.add_le_add_left (two_le_length_opArg _ _) _)
  | @constant value _ _ _ hnext =>
    rw [VM.step_pushConstant (by simpa [Item.bytes] using hrest)]
    refine h.quiet (.withStack _ _) hw.cons hnext ?_
      (hacc.move (a := 0) (c := 1) (opArg .pushConstant value).length (fun _ => by simp)
        (by simp [Item.bytes]) (by simp [opArg]))
    obtain ⟨stack, hstack⟩ := hks
    exact ⟨stack, by simp [VM.push, hstack]⟩
  | @check n _ _ rest hn hnext =>
    have hrest' : vm.rest = opArg .checkStackLength n ++ (itemBytes rest ++ itemBytes post) := by
      simpa [Item.bytes] using hrest
    have hpass : Proceeds b e imports tracked vm
        (.inl (vm.advance (opArg .checkStackLength (n : Int)).length)) :=
      h.quiet (.withStack _ _) hw.cons hnext ⟨vm.operandStack, by simp⟩
        (hacc.move (a := 0) (c := 0) 0 (fun _ => rfl) (by simp) (by simp))
    cases ht : tracked with
    | true =>
      obtain ⟨hsize, hbound⟩ := hacc ht
      rw [← ht, VM.step_checkStackLength hrest' (by have := hn ht; omega) (by rw [hsize, hn ht])]
      exact hpass
    | false =>
      rcases VM.step_checkStackLength_cases (f := f) hrest' with hstep | ⟨ip, size, hstep⟩
      · rw [hstep, ← ht]
        exact hpass
      · rw [hstep]
        refine fun _ => ⟨_, rfl, ?_, ?_⟩ <;>
          rintro ⟨⟩
  | @leave n _ _ _ rest harg hnext =>
    subst harg
    have hrest' : vm.rest = opArg .leave n ++ (itemBytes rest ++ itemBytes post) := by
      simpa [Item.bytes] using hrest
    rcases VM.step_leave_cases (f := f) hrest' with ⟨stack, hstep, hstack⟩ | ⟨r, hstep, hr⟩
    · rw [hstep]
      refine h.quiet (.withStack _ _) hw.cons hnext ⟨stack, by simp⟩
        (hacc.move (c := 0) 0 (fun ht => hstack ?_) (by simp) (by simp))
      have := hacc ht
      omega
    · rw [hstep]
      exact .of_harmless hr
  | @jump _ _ code rest hnext =>
    have hrest' : vm.rest = opArg .jump (itemBytes code).length ++
        (itemBytes code ++ (itemBytes rest ++ itemBytes post)) := by
      simpa [Item.bytes] using hrest
    rw [VM.step_jump_over hrest' hshort (by rw [h.block]; exact h.loaded.present)
      (by rw [h.block]; exact h.loaded.small)]
    refine h.quiet (.withStack _ _) ?_ hnext ⟨vm.operandStack, by simp⟩
      (hacc.move (a := 0) (c := 0) 0 (fun _ => rfl) (by simp; omega) (by simp))
    rw [← Nat.add_assoc]
    exact hw.cons.append
  | @testJump op _ _ code rest hop hthen hnext =>
    have hrest' : vm.rest = opArg op (itemBytes code).length ++
        (itemBytes code ++ (itemBytes rest ++ itemBytes post)) := by
      simpa [Item.bytes] using hrest
    rcases VM.step_testJump (f := f) hop hrest' hshort with
      ⟨stack, v, len, hstack, hlen, hstep⟩ | ⟨r, hstep, hr⟩
    · rw [hstep]
      have hsize : stack.length + 1 = vm.operandStack.length := by simp [hstack]
      rcases hlen with rfl | rfl
      · exact h.quiet (.withStack _ _) hw.cons hthen ⟨stack, by simp⟩
          (hacc.move (a := 1) (c := 0) 0 (fun _ => hsize) (by simp) (by simp))
      · refine h.quiet (.withStack _ _) ?_ hnext ⟨stack, by simp⟩
          (hacc.move (a := 1) (c := 0) 0 (fun _ => hsize) (by simp; omega) (by simp))
        rw [← Nat.add_assoc]
        exact hw.cons.append
    · rw [hstep]
      exact .of_harmless hr
  | @importVar guid _ ks rest himp hnext =>
    obtain ⟨stack, hstack⟩ := hks
    have hrest' : vm.rest = OpCode.importVar.toByte :: (itemBytes rest ++ itemBytes post) := by
      simpa [Item.bytes] using hrest
    have hstack' : vm.operandStack =
        (stack ++ (ks.map Int32.ofInt).reverse) ++ [.ofInt guid, 0] := by simp [hstack]
    rcases VM.step_importVar (f := f) hrest' hstack' with ⟨hnone, hstep⟩ | hdoes
    · rw [hstep]
      exact fun _ => ⟨_, rfl, fun _ => rfl, fun _ => ⟨guid, himp, hnone⟩⟩
    · exact h.does (.insn .importVar) (a := 2) (c := 1) hdoes (by decide) hw hnext hacc
  | call hcallee hnext => exact h.call hprog hb hw hcallee hnext hks hacc
  | ret => exact h.ret (by simpa [Item.bytes] using hrest)
  | terminate =>
    rw [VM.step_of_rest (by simpa [Item.bytes] using hrest)]
    intro h
    cases h
  | @loadString text _ _ rest hnext =>
    have hrest' : vm.rest = OpCode.loadString.toByte ::
        (appendString text ++ (itemBytes rest ++ itemBytes post)) := by
      simpa [Item.bytes] using hrest
    rw [VM.step_loadString hrest' hshort]
    have hquiet : VM.Quiet vm { vm.advance (1 + (appendString text).length) with stringAcc := text }
        (1 + (appendString text).length) := ⟨rfl, rfl, rfl, rfl, rfl, rfl, fun _ h => h⟩
    refine h.quiet hquiet ?_ hnext ⟨vm.operandStack, by simp⟩
      (hacc.move (a := 0) (c := 0) 0 (fun _ => rfl) (by simp) (by simp))
    simpa [Item.bytes, Nat.add_comm] using hw.cons
  | @createVar guid numStates _ _ rest hnext =>
    have hrest' : vm.rest = Item.bytes (.createVar guid numStates) ++
        (itemBytes rest ++ itemBytes post) := by
      rw [hrest, itemBytes_cons, List.append_assoc]
    exact h.does _ (VM.step_createVar hrest') (Nat.zero_le _) hw hnext hacc
  | site => exact absurd rfl (hno _ _)
  | excluded => exact absurd rfl (hno _ _)

/-! ### Runs -/

/-- A cleared machine is ready at the start of a block. -/
theorem Ready.start (hprog : SoundProgram imports tracked e) {loaded : VM W H} {block : UInt8}
    (hload : vm.setBlockCode block (itemBytes e.items) = some loaded)
    (hfew : tracked = false → loaded.blocks.length < 2 ^ 16) :
    Ready block.toNat e imports tracked (loaded.clear.enterBlock block) := by
  obtain ⟨hshort, hpresent, hcode, -⟩ := VM.setBlockCode_eq_some hload
  rw [VM.enterBlock_eq loaded.clear hpresent]
  refine ⟨⟨hcode, hshort, hpresent, ?_, hfew⟩, rfl, rfl, ⟨_, _, rfl, rfl⟩, trivial, true, _, 0, [],
    e.items, ⟨[], [], by simp, rfl, fun _ => rfl⟩, hprog.code, ⟨[], rfl⟩, fun _ => ?_⟩
  · have := block.toNat_lt
    omega
  · have hbound : 0 + (itemBytes e.items).length + (itemBytes e.items).length ≤ 2 ^ 17 := by omega
    exact ⟨rfl, hbound⟩

/-- In the block 0, where calls find their functions, every state of a run is good. -/
theorem Ready.reaches (hprog : SoundProgram imports tracked e) {start t : VM W H}
    (hstart : Ready 0 e imports tracked start)
    (hsites : tracked = true → ∀ t, Run.Reaches (VM.step f) start t →
      ∀ site, AtSite e t.ip site → site.Sound e.functions)
    (hreach : Run.Reaches (VM.step f) start t) : Ready 0 e imports tracked t := by
  induction hreach with
  | refl => exact hstart
  | @tail t u hreach hstep ih =>
    have hnext := ih.step (f := f) hprog (fun _ => rfl) fun ht => hsites ht t hreach
    rw [hstep] at hnext
    exact hnext.2 (.inr rfl)

end

/-- A program in the block 0 of a machine that has nothing else, executed for at most `fuel`
rounds. -/
def executeFresh (unit : List CommandTree) (fuel : Nat) : Option (Verdict × VM Unit Unit) := do
  let e ← compile 0 unit
  let loaded ← (VM.fresh ()).setBlockCode 0 (itemBytes e.items)
  Run.run (VM.step .zero) fuel (loaded.clear.enterBlock 0)

theorem executeFresh_eq_some {unit : List CommandTree} {fuel : Nat} {r : Verdict × VM Unit Unit}
    (h : executeFresh unit fuel = some r) :
    ∃ commands d loaded, (Driver.start 0).parseFile unit = .ok (commands, d) ∧
      (VM.fresh ()).setBlockCode 0 (d.serialize commands).1 = some loaded ∧
      Run.Halts (VM.step .zero) (loaded.clear.enterBlock 0) r := by
  obtain ⟨e, he, h⟩ := Option.bind_eq_some_iff.mp h
  obtain ⟨loaded, hload, hrun⟩ := Option.bind_eq_some_iff.mp h
  obtain ⟨commands, d, hparse, rfl⟩ := compile_eq_some he
  exact ⟨commands, d, loaded, hparse, by rwa [Driver.serialize_eq_emit], Run.Halts.of_run hrun⟩

end OpenmrnCue.Logic
