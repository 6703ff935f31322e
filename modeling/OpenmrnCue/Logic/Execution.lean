import OpenmrnCue.Logic.AST
import OpenmrnCue.Logic.VM

/-! Rounds of the virtual machine on compiled code.  The code from the instruction pointer on is
given as what is about to be executed in front of the rest, and one lemma an operand says what the
round reads. -/

namespace OpenmrnCue.Logic

namespace VM

variable {W H : Type} {f : VariableFactory W H} {vm : VM W H}

/-- The pointer moves over `n` bytes. -/
def advance (vm : VM W H) (n : Nat) : VM W H := { vm with ip := vm.ip + n }

@[simp] theorem advance_advance (n m : Nat) : (vm.advance n).advance m = vm.advance (n + m) := by
  simp [advance, Nat.add_assoc]

@[simp] theorem advance_zero : vm.advance 0 = vm := rfl

@[simp] theorem advance_ip (n : Nat) : (vm.advance n).ip = vm.ip + n := rfl

@[simp] theorem advance_operandStack (n : Nat) :
    (vm.advance n).operandStack = vm.operandStack := rfl

@[simp] theorem advance_fp (n : Nat) : (vm.advance n).fp = vm.fp := rfl

@[simp] theorem advance_callStack (n : Nat) : (vm.advance n).callStack = vm.callStack := rfl

@[simp] theorem advance_variableStack (n : Nat) :
    (vm.advance n).variableStack = vm.variableStack := rfl

@[simp] theorem advance_externalVariables (n : Nat) :
    (vm.advance n).externalVariables = vm.externalVariables := rfl

@[simp] theorem advance_isPreamble (n : Nat) : (vm.advance n).isPreamble = vm.isPreamble := rfl

@[simp] theorem advance_code (n : Nat) : (vm.advance n).code = vm.code := rfl

/-- The operand stack is `stack`. -/
def withStack (vm : VM W H) (stack : List Int32) : VM W H := { vm with operandStack := stack }

@[simp] theorem withStack_operandStack (stack : List Int32) :
    (vm.withStack stack).operandStack = stack := rfl

@[simp] theorem withStack_withStack (stack stack' : List Int32) :
    (vm.withStack stack).withStack stack' = vm.withStack stack' := rfl

@[simp] theorem withStack_advance (stack : List Int32) (n : Nat) :
    (vm.advance n).withStack stack = (vm.withStack stack).advance n := rfl

@[simp] theorem withStack_self : vm.withStack vm.operandStack = vm := rfl

@[simp] theorem withStack_rest (stack : List Int32) : (vm.withStack stack).rest = vm.rest := rfl

@[simp] theorem withStack_ip (stack : List Int32) : (vm.withStack stack).ip = vm.ip := rfl

@[simp] theorem withStack_code (stack : List Int32) : (vm.withStack stack).code = vm.code := rfl

@[simp] theorem withStack_fp (stack : List Int32) : (vm.withStack stack).fp = vm.fp := rfl

theorem push_eq (v : Int32) : vm.push v = vm.withStack (vm.operandStack ++ [v]) := rfl

@[simp] theorem push_operandStack (v : Int32) :
    (vm.push v).operandStack = vm.operandStack ++ [v] := rfl

@[simp] theorem push_ip (v : Int32) : (vm.push v).ip = vm.ip := rfl

theorem push_advance (v : Int32) (n : Nat) : (vm.advance n).push v = (vm.push v).advance n := rfl

/-! ### Reading the code -/

theorem rest_drop (n : Nat) : (vm.advance n).rest = vm.rest.drop n := by
  simp [rest, advance, code, List.drop_drop]

theorem rest_advance {code tail : Bytes} (h : vm.rest = code ++ tail) :
    (vm.advance code.length).rest = tail := by
  rw [rest_drop, h, List.drop_left]

theorem rest_advance_one {b : UInt8} {tail : Bytes} (h : vm.rest = b :: tail) :
    (vm.advance 1).rest = tail := rest_advance (show vm.rest = [b] ++ tail from h)

theorem length_rest : vm.rest.length = vm.code.length - vm.ip := by simp [rest]

/-- There is room in the code for what is about to be executed. -/
theorem ip_add_length_le {code tail : Bytes} (h : vm.rest = code ++ tail) (hne : code ≠ []) :
    vm.ip + code.length ≤ vm.code.length := by
  have hlen := congrArg List.length h
  have hpos := List.length_pos_of_ne_nil hne
  simp only [length_rest, List.length_append] at hlen
  omega

/-- A round reads an opcode and executes it. -/
theorem step_of_rest {op : OpCode} {tail : Bytes} (h : vm.rest = op.toByte :: tail) :
    step f vm = (vm.advance 1).executeInsn f op := by
  simp [step, h, advance]

theorem step_of_eof (h : vm.rest = []) : step f vm = .inr (.success, vm) := by
  simp [step, h]

theorem getVarint_eq {value : Int32} {tail : Bytes} (h : vm.rest = appendVarint value ++ tail)
    (k : Int32 → VM W H → Step W H) :
    vm.getVarint k = k value (vm.advance (appendVarint value).length) := by
  have hlen : vm.rest.length - tail.length = (appendVarint value).length := by
    rw [h, List.length_append]
    omega
  simp only [getVarint]
  rw [h, parseVarint_appendVarint, ← h]
  simp only [hlen, advance]

theorem getFromStack_eq {stack : List Int32} {value : Int32}
    (h : vm.operandStack = stack ++ [value]) (insn : OpCode) (name : String)
    (k : Int32 → VM W H → Step W H) :
    vm.getFromStack insn name k = k value (vm.withStack stack) := by
  simp [getFromStack, h, withStack]

/-- An opcode and its integer have been read, and the pointer is at `tail`. -/
theorem rest_opArg {op : OpCode} {value : Int} {tail : Bytes}
    (h : vm.rest = opArg op value ++ tail) :
    vm.rest = op.toByte :: (appendVarint (.ofInt value) ++ tail) := h

@[simp] theorem length_opArg (op : OpCode) (value : Int) :
    (opArg op value).length = 1 + (appendVarint (.ofInt value)).length := by
  simp [opArg, Nat.add_comm]

/-- The integer behind the opcode that was just read. -/
theorem getVarint_opArg {op : OpCode} {value : Int} {tail : Bytes}
    (h : vm.rest = opArg op value ++ tail) (k : Int32 → VM W H → Step W H) :
    (vm.advance 1).getVarint k = k (.ofInt value) (vm.advance (opArg op value).length) := by
  rw [getVarint_eq (rest_advance_one (rest_opArg h)), advance_advance, length_opArg]

/-! ### Small numbers

Everything that the compiler writes into code of less than 64 KiB fits in an `int`. -/

theorem toInt_ofInt_natCast {n : Nat} (h : n < 2 ^ 31) : (Int32.ofInt n).toInt = n :=
  Int32.toInt_ofInt_of_le (by omega) (by exact_mod_cast h)

theorem toUnsigned_natCast {n : Nat} (h : n < 2 ^ 32) : toUnsigned n = n := by
  unfold toUnsigned
  omega

/-- An offset from the frame pointer. -/
theorem toUnsigned_fp_add {fp n : Nat} (h : fp + n < 2 ^ 31) :
    toUnsigned (fp + (Int32.ofInt n).toInt) = fp + n := by
  rw [toInt_ofInt_natCast (by omega), ← Int.natCast_add, toUnsigned_natCast (by omega)]

/-! ### Single instructions -/

theorem binary_eq {stack : List Int32} {l r : Int32} (h : vm.operandStack = stack ++ [l, r])
    (insn : OpCode) (name : String) (op : Int32 → Int32 → Int32) :
    vm.binary insn name op = .inl (vm.withStack (stack ++ [op l r])) := by
  have hstack : vm.operandStack = (stack ++ [l]) ++ [r] := by simpa using h
  rw [binary, getFromStack_eq hstack, getFromStack_eq rfl]
  rfl

theorem division_eq {stack : List Int32} {l r : Int32} (h : vm.operandStack = stack ++ [l, r])
    (insn : OpCode) (op : Int32 → Int32 → Int32) :
    vm.division insn op =
      if r = 0 then (vm.withStack stack).fail .divByZero
      else .inl (vm.withStack (stack ++ [op l r])) := by
  have hstack : vm.operandStack = (stack ++ [l]) ++ [r] := by simpa using h
  rw [division, getFromStack_eq hstack, getFromStack_eq rfl]
  rfl

/-- A conditional jump over `code`. -/
theorem testJump_eq {op : OpCode} {code tail : Bytes} {stack : List Int32} {v : Int32}
    (hrest : vm.rest = opArg op code.length ++ (code ++ tail)) (hsmall : code.length < 2 ^ 31)
    (hstack : vm.operandStack = stack ++ [v]) (name : String) (takes : Int32 → Bool) :
    (vm.advance 1).testJump op name takes = .inl ((vm.withStack stack).advance
      ((opArg op code.length).length + if takes v then code.length else 0)) := by
  have hstack' : (vm.advance (opArg op code.length).length).operandStack = stack ++ [v] := hstack
  rw [testJump, getVarint_opArg hrest, getFromStack_eq hstack', toInt_ofInt_natCast hsmall]
  by_cases ht : takes v = true
  · rw [if_pos ht, if_pos ht, if_neg (by omega), ← advance_advance]
    rfl
  · rw [if_neg ht, if_neg ht]
    rfl

/-- `TEST_JUMP_IF_FALSE` over `code`. -/
theorem step_testJumpIfFalse {code tail : Bytes} {stack : List Int32} {v : Int32}
    (hrest : vm.rest = opArg .testJumpIfFalse code.length ++ (code ++ tail))
    (hshort : vm.code.length < 2 ^ 16) (hstack : vm.operandStack = stack ++ [v]) :
    step f vm = .inl ((vm.withStack stack).advance
      ((opArg .testJumpIfFalse code.length).length + if v = 0 then code.length else 0)) := by
  have hlen := congrArg List.length hrest
  simp only [length_rest, List.length_append] at hlen
  rw [step_of_rest (rest_opArg hrest)]
  change (vm.advance 1).testJump .testJumpIfFalse _ (· == 0) = _
  rw [testJump_eq hrest (by omega) hstack]
  simp only [beq_iff_eq]

/-- `LOAD_STRING` puts the text behind it into the string accumulator. -/
theorem step_loadString {text tail : Bytes}
    (hrest : vm.rest = OpCode.loadString.toByte :: (appendString text ++ tail))
    (hshort : vm.code.length < 2 ^ 16) :
    step f vm = .inl { vm.advance (1 + (appendString text).length) with stringAcc := text } := by
  have hlen := congrArg List.length hrest
  simp only [length_rest, List.length_append, List.length_cons, appendString] at hlen
  have hint : (Int32.ofNat text.length).toInt = text.length :=
    Int32.toInt_ofNat_of_lt (by omega)
  have hneg : ¬Int32.ofNat text.length < 0 := by
    rw [Int32.lt_iff_toInt_lt, hint]
    simp
  have hrest1 : ({ vm.advance 1 with stringAcc := [] } : VM W H).rest =
      appendVarint (.ofNat text.length) ++ (text ++ tail) := by
    have := rest_advance_one hrest
    rwa [appendString, List.append_assoc] at this
  have hrest2 := rest_advance hrest1
  rw [step_of_rest hrest]
  change (vm.advance 1).parseString (fun vm => vm.proceed) = _
  rw [parseString, getVarint_eq hrest1, if_neg hneg, hint, hrest2, if_neg (by simp)]
  simp [proceed, advance, appendString, Nat.add_assoc]

/-- `LEAVE` drops the words above the first `n`. -/
theorem step_leave {n len : Nat} {tail : Bytes} (hlen : vm.operandStack.length = len)
    (hn : n ≤ len) (hsmall : len < 2 ^ 31) (hrest : vm.rest = opArg .leave (len - n : Int) ++ tail) :
    step f vm = .inl ((vm.withStack (vm.operandStack.take n)).advance
      (opArg .leave (len - n : Int)).length) := by
  have hsub : (len - n : Int) = (len - n : Nat) := by omega
  have hint : (Int32.ofInt (len - n : Int)).toInt = (len - n : Nat) := by
    rw [hsub, toInt_ofInt_natCast (by omega)]
  have hneg : ¬Int32.ofInt (len - n : Int) < 0 := by
    rw [Int32.lt_iff_toInt_lt, hint]
    simp
  rw [step_of_rest (rest_opArg hrest), executeInsn, getVarint_opArg hrest, if_neg hneg, hint,
    advance_operandStack, hlen, if_neg (by omega), Int.toNat_natCast, Nat.sub_sub_self hn]
  rfl

/-- A stack of the expected length passes the check. -/
theorem step_checkStackLength {n : Nat} {tail : Bytes}
    (hrest : vm.rest = opArg .checkStackLength n ++ tail) (hsmall : vm.fp + n < 2 ^ 31)
    (hlen : vm.operandStack.length = vm.fp + n) :
    step f vm = .inl (vm.advance (opArg .checkStackLength (n : Int)).length) := by
  rw [step_of_rest (rest_opArg hrest), executeInsn, getVarint_opArg hrest, advance_fp,
    toUnsigned_fp_add hsmall, advance_operandStack, if_neg (by simpa using hlen)]
  rfl

/-- With the preamble off, the code in front of the commands skips the preamble. -/
theorem reaches_skipPreamble {preamble tail : Bytes}
    (hrest : vm.rest = OpCode.ifPreamble.toByte ::
      (opArg .testJumpIfFalse preamble.length ++ (preamble ++ tail)))
    (hshort : vm.code.length < 2 ^ 16) (hoff : vm.isPreamble = false) :
    Run.Reaches (step f) vm
      (vm.advance (1 + ((opArg .testJumpIfFalse preamble.length).length + preamble.length))) := by
  have hpush : step f vm = .inl ((vm.push 0).advance 1) := by
    rw [step_of_rest hrest]
    change ((vm.advance 1).push (ofBool (vm.advance 1).isPreamble)).proceed = _
    rw [advance_isPreamble, hoff]
    rfl
  have hstack : ((vm.push 0).advance 1).operandStack = vm.operandStack ++ [0] := rfl
  have hrest' : ((vm.push 0).advance 1).rest = _ := rest_advance_one hrest
  have htest := step_testJumpIfFalse (f := f) hrest' hshort hstack
  refine (Run.Reaches.single hpush).tail (htest.trans ?_)
  rw [withStack_advance, advance_advance, if_pos rfl]
  rfl

/-! ### Loading and entering a block -/

theorem setBlockCode_eq_some {b : UInt8} {code : Bytes} {loaded : VM W H}
    (h : vm.setBlockCode b code = some loaded) :
    code.length < 2 ^ 16 ∧ b.toNat < loaded.blocks.length ∧
      loaded.blocks.getD b.toNat [] = code ∧ loaded = { vm with blocks := loaded.blocks } := by
  obtain ⟨hlen, h⟩ := Option.ite_none_right_eq_some.mp h
  cases h
  have hb : b.toNat <
      (vm.blocks ++ List.replicate (b.toNat + 1 - vm.blocks.length) []).length := by
    simp only [List.length_append, List.length_replicate]
    omega
  refine ⟨hlen, by simpa using hb, ?_, rfl⟩
  rw [List.getD_eq_getElem?_getD, List.getElem?_set_self hb]
  rfl

theorem setBlockCode_isSome (vm : VM W H) (b : UInt8) {code : Bytes} (h : code.length < 2 ^ 16) :
    ∃ loaded, vm.setBlockCode b code = some loaded :=
  ⟨_, if_pos h⟩

/-- `VM::execute_block` starts at the first byte of a block that exists. -/
theorem enterBlock_eq (vm : VM W H) {b : UInt8} (h : b.toNat < vm.blocks.length) :
    vm.enterBlock b = { vm with blockNum := b, ipBlockNum := b.toNat, ip := 0 } := by
  have hblock : b.toNat <<< blockCodeIpShift >>> blockCodeIpShift = b.toNat :=
    Nat.shiftLeft_shiftRight _ _
  have hofs : b.toNat <<< blockCodeIpShift % 2 ^ blockCodeIpShift = 0 := by
    rw [Nat.shiftLeft_eq, Nat.mul_mod_left]
  simp only [enterBlock, getBlockStartIp, jump, jump?, hblock, hofs]
  rw [if_neg (by omega), if_neg (by omega)]
  rfl

end VM

end OpenmrnCue.Logic
