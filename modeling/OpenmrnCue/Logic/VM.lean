import OpenmrnCue.Library.Run
import OpenmrnCue.Logic.Variable

/-! The virtual machine of the logic language: its state, and one round of the loop of
`VM::execute`.  A round reads its operands from the code and the stack in the order of the source,
so that a piece of code that fails in two ways fails here in the same way first. -/

namespace OpenmrnCue.Logic

/-- The text that `%d` prints. -/
def decimal (value : Int32) : Bytes := textBytes (toString value.toInt)

/-- The text that `%02x` prints for a byte. -/
def hexByte (b : UInt8) : String :=
  String.ofList [Nat.digitChar (b.toNat / 16), Nat.digitChar (b.toNat % 16)]

/-- The exceptions of the virtual machine, with what their texts print. -/
inductive VMError
  | unexpectedEof (doing : String)
  | variableAccess (ip : Nat)
  | stackUnderflow (ip : Nat) (insn : UInt8) (name : String)
  | leaveNegative (ip : Nat) (r : Int32)
  | leaveUnderflow (ip : Nat) (r : Int32) (size : Nat)
  | stackLength (ip : Nat) (expected : Int32) (actual : Nat)
  | storeOffset
  | loadOffset
  | indirectReference
  | pushTopUnderflow
  | popOpUnderflow
  | createVariable (name : Bytes)
  | unknownGuid (guid : Int32)
  | divByZero
  | callUnderflow
  | callFp (expected actual : Nat)
  | retUnderflow
  | unexpectedInstruction (insn : UInt8)
  deriving DecidableEq

/-- The text in `error_`. -/
def VMError.text : VMError → Bytes
  | unexpectedEof doing => textBytes s!"Unexpected EOF {doing}"
  | variableAccess ip => textBytes s!"At IP {ip}: Variable access error."
  | stackUnderflow ip insn name =>
    textBytes s!"Stack underflow at ip {ip} insn {hexByte insn} {name}"
  | leaveNegative ip r => textBytes s!"At IP {ip}: LEAVE with negative argument {r}."
  | leaveUnderflow ip r size =>
    textBytes s!"At IP {ip}: Stack underflow with LEAVE; arg={r} stack size={size}"
  | stackLength ip expected actual =>
    textBytes s!"At IP {ip}: Operand stack length error, expected {expected}, actual {actual}."
  | storeOffset => textBytes "Invalid relative offset for STORE_FP_REL"
  | loadOffset => textBytes "Invalid relative offset for LOAD_FP_REL"
  | indirectReference => textBytes "Invalid indirect variable reference."
  | pushTopUnderflow => textBytes "Stack underflow at PUSH_TOP"
  | popOpUnderflow => textBytes "Stack underflow at POP_OP"
  | createVariable name => textBytes "Error creating variable '" ++ name ++ textBytes "'."
  | unknownGuid guid => textBytes s!"Unknown variable GUID {guid} at IMPORT_VAR"
  | divByZero => textBytes "Div by zero"
  | callUnderflow => textBytes "Call stack underflow at CALL"
  | callFp expected actual =>
    textBytes s!"Unexpected fp at CALL. Expected {expected} actual {actual}"
  | retUnderflow => textBytes "Call stack underflow at RET"
  | unexpectedInstruction insn => textBytes s!"Unexpected instruction {hexByte insn}"

/-- A stack frame.  `returnAddress` is an `ip_t`: a block number above an offset. -/
structure ExecutionEnvironment where
  fp : Nat
  vp : Nat
  returnAddress : Nat
  deriving DecidableEq, Repr

/-- What a variable reference points at: the slots of the operand stack, or an entry of
`external_variables_`. -/
inductive VariablePointer
  | operandStack
  | external (guid : UInt32)
  deriving DecidableEq, Repr

structure VMVariableReference where
  var : VariablePointer
  arg : Nat
  deriving DecidableEq, Repr

/-- The state of the virtual machine.  `back()` is the head of `callStack` and the last element of
`operandStack` and `variableStack`.  `ip` is the offset of `_ip_` in its block; `output` lists what
went to the print callback, and `world` is the state of the variable factory. -/
structure VM (W H : Type) where
  blocks : List Bytes
  callStack : List ExecutionEnvironment
  operandStack : List Int32
  variableStack : List VMVariableReference
  stringAcc : Bytes
  variableRequest : VariableCreationRequest
  externalVariables : UInt32 → Option (Variable H)
  error : Option VMError
  output : List Bytes
  ipBlockNum : Nat
  ip : Nat
  fp : Nat
  blockNum : UInt8
  isPreamble : Bool
  accessError : Bool
  world : W

/-- How `VM::execute` comes back: it returns true, it returns false, or it does something that the
C++ language leaves undefined (a pointer outside of the code, a negative text length, a variable
that is gone). -/
inductive Verdict
  | success | exception | undefined
  deriving DecidableEq, Repr

/-- One round of the loop: the next state, or the end of `VM::execute`. -/
abbrev Step (W H : Type) := VM W H ⊕ (Verdict × VM W H)

/-- `BLOCK_CODE_IP_SHIFT`. -/
def blockCodeIpShift : Nat := 16

/-- A value of type `unsigned`. -/
def toUnsigned (i : Int) : Nat := (i % 2 ^ 32).toNat

/-- An `int` that tells a truth value. -/
def ofBool (b : Bool) : Int32 := if b then 1 else 0

namespace VM

variable {W H : Type}

/-- The code of the block that the instruction pointer is in. -/
def code (vm : VM W H) : Bytes := vm.blocks.getD vm.ipBlockNum []

/-- The code from the instruction pointer on. -/
def rest (vm : VM W H) : Bytes := vm.code.drop vm.ip

def getBlockStartIp (vm : VM W H) : Nat := vm.blockNum.toNat <<< blockCodeIpShift

def getIp (vm : VM W H) : Nat := (vm.ipBlockNum <<< blockCodeIpShift) ||| vm.ip

/-- `VM::jump`; `none` if the target is invalid. -/
def jump? (vm : VM W H) (target : Nat) : Option (VM W H) :=
  let blockNum := target >>> blockCodeIpShift
  let ofs := target % 2 ^ blockCodeIpShift
  if blockNum ≥ vm.blocks.length then none
  else if ofs > (vm.blocks.getD blockNum []).length then none
  else some { vm with ipBlockNum := blockNum, ip := ofs }

/-- A jump whose result nobody looks at: an invalid target leaves the machine where it is. -/
def jump (vm : VM W H) (target : Nat) : VM W H := (vm.jump? target).getD vm

/-- A machine after its construction and `clear`. -/
def fresh (world : W) : VM W H where
  blocks := []
  callStack := [{ fp := 0, vp := 0, returnAddress := 0 }]
  operandStack := []
  variableStack := []
  stringAcc := []
  variableRequest := .cleared
  externalVariables := fun _ => none
  error := none
  output := []
  ipBlockNum := 0
  ip := 0
  fp := 0
  blockNum := 0
  isPreamble := false
  accessError := false
  world := world

/-- Resets the stacks; the string accumulator, the creation request and the variables stay. -/
def clear (vm : VM W H) : VM W H :=
  { vm with
    operandStack := []
    variableStack := []
    callStack := [{ fp := 0, vp := 0, returnAddress := 0 }]
    fp := 0
    accessError := false }

/-- `VM::set_block_code`; `none` if its assertion on the size of the code fails. -/
def setBlockCode (vm : VM W H) (blockNum : UInt8) (code : Bytes) : Option (VM W H) :=
  if code.length < 2 ^ blockCodeIpShift then
    let blocks := vm.blocks ++ List.replicate (blockNum.toNat + 1 - vm.blocks.length) []
    some { vm with blocks := blocks.set blockNum.toNat code }
  else none

def setPreamble (vm : VM W H) (isPreamble : Bool) : VM W H := { vm with isPreamble }

/-- `VM::save_variables` followed by `VM::destroy_saved_variables`: the variables in
`[begin, stop)` are gone. -/
def dropVariables (vm : VM W H) (begin stop : Nat) : VM W H :=
  { vm with
    externalVariables := fun guid =>
      if begin ≤ guid.toNat ∧ guid.toNat < stop then none else vm.externalVariables guid }

/-! ### The ways a round ends -/

/-- `return false` with a text in `error_`. -/
def fail (vm : VM W H) (e : VMError) : Step W H := .inr (.exception, { vm with error := some e })

/-- `break`: on with the loop. -/
def proceed (vm : VM W H) : Step W H := .inl vm

def undefined (vm : VM W H) : Step W H := .inr (.undefined, vm)

/-! ### Operands -/

def push (vm : VM W H) (value : Int32) : VM W H :=
  { vm with operandStack := vm.operandStack ++ [value] }

/-- `GET_VARINT`.  A number that is cut off leaves the pointer at the end of the code. -/
def getVarint (vm : VM W H) (k : Int32 → VM W H → Step W H) : Step W H :=
  match parseVarint vm.rest with
  | none => { vm with ip := vm.code.length }.fail (.unexpectedEof "parsing varint")
  | some (value, rest) => k value { vm with ip := vm.ip + (vm.rest.length - rest.length) }

/-- `GET_FROM_STACK`. -/
def getFromStack (vm : VM W H) (insn : OpCode) (name : String)
    (k : Int32 → VM W H → Step W H) : Step W H :=
  match vm.operandStack.getLast? with
  | none => vm.fail (.stackUnderflow vm.getIp insn.toByte name)
  | some value => k value { vm with operandStack := vm.operandStack.dropLast }

/-- `VM::parse_string`, into the string accumulator. -/
def parseString (vm : VM W H) (k : VM W H → Step W H) : Step W H :=
  { vm with stringAcc := [] }.getVarint fun len vm =>
    if len < 0 then vm.undefined
    else if vm.rest.length < len.toInt.toNat then vm.fail (.unexpectedEof "parsing string")
    else k { vm with
      stringAcc := vm.rest.take len.toInt.toNat
      ip := vm.ip + len.toInt.toNat }

/-! ### Variables -/

/-- `VM::access_error`. -/
def reportAccessError (vm : VM W H) : VM W H :=
  { vm with accessError := true, error := some (.variableAccess vm.getIp) }

/-- `ref.var->read(..)`; `none` if the variable is gone. -/
def readVariable (f : VariableFactory W H) (vm : VM W H) (ref : VMVariableReference) :
    Option (Int32 × VM W H) :=
  match ref.var with
  | .operandStack =>
    match vm.operandStack[ref.arg]? with
    | none => some (-1, vm.reportAccessError)
    | some value => some (value, vm)
  | .external guid =>
    match vm.externalVariables guid with
    | none => none
    | some (.static value) => some (value, vm)
    | some (.external handle) =>
      match f.read vm.world handle ref.arg with
      | (value, failed, world) =>
        let vm := { vm with world }
        some (value, if failed then vm.reportAccessError else vm)

/-- `ref.var->write(..)`; `none` if the variable is gone. -/
def writeVariable (f : VariableFactory W H) (vm : VM W H) (ref : VMVariableReference)
    (value : Int32) : Option (VM W H) :=
  match ref.var with
  | .operandStack =>
    if vm.operandStack.length ≤ ref.arg then some vm.reportAccessError
    else some { vm with operandStack := vm.operandStack.set ref.arg value }
  | .external guid =>
    match vm.externalVariables guid with
    | none => none
    | some (.static _) =>
      some { vm with
        externalVariables := Function.update vm.externalVariables guid (some (.static value)) }
    | some (.external handle) =>
      match f.write vm.world handle ref.arg value with
      | (failed, world) =>
        let vm := { vm with world }
        some (if failed then vm.reportAccessError else vm)

/-- The reference at `varidx` of the variable stack, if there is one. -/
def reference? (vm : VM W H) (varidx : Int32) : Option VMVariableReference :=
  if varidx < 0 then none else vm.variableStack[varidx.toInt.toNat]?

/-- A new reference on the variable stack, and its index on the operand stack. -/
def pushReference (vm : VM W H) (ref : VMVariableReference) : VM W H :=
  { vm with variableStack := vm.variableStack ++ [ref] }.push (.ofNat vm.variableStack.length)

/-! ### One round -/

/-- The instructions that take two values off the stack and push one. -/
def binary (vm : VM W H) (insn : OpCode) (name : String) (op : Int32 → Int32 → Int32) : Step W H :=
  vm.getFromStack insn name fun rhs vm =>
    vm.getFromStack insn name fun lhs vm => (vm.push (op lhs rhs)).proceed

/-- The divisions, which refuse a zero on the right. -/
def division (vm : VM W H) (insn : OpCode) (op : Int32 → Int32 → Int32) : Step W H :=
  vm.getFromStack insn "" fun rhs vm =>
    vm.getFromStack insn "" fun lhs vm =>
      if rhs = 0 then vm.fail .divByZero else (vm.push (op lhs rhs)).proceed

/-- The conditional jumps, which move the pointer without a check. -/
def testJump (vm : VM W H) (insn : OpCode) (name : String) (takes : Int32 → Bool) : Step W H :=
  vm.getVarint fun r vm =>
    vm.getFromStack insn name fun arg vm =>
      if takes arg then
        let target := (vm.ip : Int) + r.toInt
        if target < 0 then vm.undefined else { vm with ip := target.toNat }.proceed
      else vm.proceed

/-- `CREATE_VAR`: the request that is handed to the factory. -/
def creationRequest (vm : VM W H) (numStates : Int32) : VariableCreationRequest :=
  let request := { vm.variableRequest with name := vm.stringAcc, blockNum := vm.blockNum }
  if 0 ≤ numStates then { request with type := .int, numStates } else request

/-- The instruction `insn`, with the pointer after its opcode. -/
def executeInsn (f : VariableFactory W H) (vm : VM W H) (insn : OpCode) : Step W H :=
  match insn with
  | .terminate => .inr (.success, vm)
  | .pushConstant => vm.getVarint fun r vm => (vm.push r).proceed
  | .enter => vm.getVarint fun r vm =>
    let size := (vm.operandStack.length : Int) + r.toInt
    if size < 0 then vm.undefined
    else { vm with operandStack := vm.operandStack.takeD size.toNat 0 }.proceed
  | .leave => vm.getVarint fun r vm =>
    if r < 0 then vm.fail (.leaveNegative vm.getIp r)
    else if vm.operandStack.length < r.toInt then
      vm.fail (.leaveUnderflow vm.getIp r vm.operandStack.length)
    else
      { vm with
        operandStack := vm.operandStack.take (vm.operandStack.length - r.toInt.toNat) }.proceed
  | .checkStackLength => vm.getVarint fun r vm =>
    if vm.operandStack.length ≠ toUnsigned (vm.fp + r.toInt) then
      vm.fail (.stackLength vm.getIp r vm.operandStack.length)
    else vm.proceed
  | .storeFpRel => vm.getFromStack insn "STORE_FP_REL" fun val vm =>
    vm.getVarint fun relofs vm =>
      let ofs := toUnsigned (vm.fp + relofs.toInt)
      if vm.operandStack.length ≤ ofs then vm.fail .storeOffset
      else { vm with operandStack := vm.operandStack.set ofs val }.proceed
  | .loadFpRel => vm.getVarint fun relofs vm =>
    match vm.operandStack[toUnsigned (vm.fp + relofs.toInt)]? with
    | none => vm.fail .loadOffset
    | some val => (vm.push val).proceed
  | .indirectLoad => vm.getFromStack insn "INDIRECT_LOAD" fun varidx vm =>
    match vm.reference? varidx with
    | none => vm.fail .indirectReference
    | some ref =>
      match vm.readVariable f ref with
      | none => vm.undefined
      | some (val, vm) => if vm.accessError then .inr (.exception, vm) else (vm.push val).proceed
  | .indirectStore => vm.getFromStack insn "INDIRECT_STORE" fun varidx vm =>
    vm.getFromStack insn "INDIRECT_STORE" fun value vm =>
      match vm.reference? varidx with
      | none => vm.fail .indirectReference
      | some ref =>
        match vm.writeVariable f ref value with
        | none => vm.undefined
        | some vm => if vm.accessError then .inr (.exception, vm) else vm.proceed
  | .pushTop =>
    match vm.operandStack.getLast? with
    | none => vm.fail .pushTopUnderflow
    | some val => (vm.push val).proceed
  | .popOp =>
    if vm.operandStack = [] then vm.fail .popOpUnderflow
    else { vm with operandStack := vm.operandStack.dropLast }.proceed
  | .pushConstant0 => (vm.push 0).proceed
  | .pushConstant1 => (vm.push 1).proceed
  | .ifPreamble => (vm.push (ofBool vm.isPreamble)).proceed
  | .loadString => vm.parseString fun vm => vm.proceed
  | .createVar => vm.getVarint fun guid vm => vm.getVarint fun numStates vm =>
    match f.createVariable vm.world (vm.creationRequest numStates) with
    | (none, request, world) =>
      { vm with stringAcc := [], variableRequest := request, world }.fail
        (.createVariable request.name)
    | (some handle, _, world) =>
      { vm with
        stringAcc := []
        variableRequest := .cleared
        externalVariables :=
          Function.update vm.externalVariables guid.toUInt32 (some (.external handle))
        world }.proceed
  | .importVar => vm.getFromStack insn "IMPORT_VAR" fun arg vm =>
    vm.getFromStack insn "IMPORT_VAR" fun guid vm =>
      match vm.externalVariables guid.toUInt32 with
      | none => vm.fail (.unknownGuid guid)
      | some _ =>
        (vm.pushReference ⟨.external guid.toUInt32, arg.toUInt32.toNat⟩).proceed
  | .createIndirectVar => vm.getVarint fun fpofs vm =>
    (vm.pushReference ⟨.operandStack, toUnsigned (vm.fp + fpofs.toInt)⟩).proceed
  | .createStaticVar => vm.getVarint fun guid vm =>
    let created := (vm.externalVariables guid.toUInt32).isNone
    let vm := if created then
        { vm with
          externalVariables :=
            Function.update vm.externalVariables guid.toUInt32 (some (.static 0)) }
      else vm
    ((vm.pushReference ⟨.external guid.toUInt32, 0⟩).push (ofBool created)).proceed
  | .numericPlus => vm.binary insn "NUMERIC_PLUS" (· + ·)
  | .numericMinus => vm.binary insn "" (· - ·)
  | .numericMul => vm.binary insn "" (· * ·)
  | .numericDiv => vm.division insn (· / ·)
  | .numericMod => vm.division insn (· % ·)
  | .boolEq => vm.binary insn "BOOLEQ" fun lhs rhs => ofBool ((lhs != 0) == (rhs != 0))
  | .boolNeq => vm.binary insn "BOOLNEQ" fun lhs rhs => ofBool ((lhs != 0) != (rhs != 0))
  | .numericLeq => vm.binary insn "INTCOMP" fun lhs rhs => ofBool (lhs ≤ rhs)
  | .numericGeq => vm.binary insn "INTCOMP" fun lhs rhs => ofBool (lhs ≥ rhs)
  | .numericLt => vm.binary insn "INTCOMP" fun lhs rhs => ofBool (lhs < rhs)
  | .numericGt => vm.binary insn "INTCOMP" fun lhs rhs => ofBool (lhs > rhs)
  | .numericEq => vm.binary insn "INTCOMP" fun lhs rhs => ofBool (lhs == rhs)
  | .numericNeq => vm.binary insn "INTCOMP" fun lhs rhs => ofBool (lhs != rhs)
  | .boolNot => vm.getFromStack insn "" fun rhs vm => (vm.push (ofBool (rhs == 0))).proceed
  | .boolProject => vm.getFromStack insn "" fun rhs vm => (vm.push (ofBool (rhs != 0))).proceed
  | .jump => vm.getVarint fun r vm => (vm.jump (toUnsigned (vm.getIp + r.toInt))).proceed
  | .call =>
    match vm.callStack with
    | [] => vm.fail .callUnderflow
    | top :: _ =>
      if vm.fp ≠ top.fp then vm.fail (.callFp top.fp vm.fp)
      else vm.getFromStack insn "" fun dst vm => vm.getVarint fun numArg vm =>
        let fp := toUnsigned (vm.operandStack.length - numArg.toInt)
        let frame : ExecutionEnvironment :=
          { fp, vp := vm.variableStack.length, returnAddress := vm.getIp }
        ({ vm with callStack := frame :: vm.callStack, fp }.jump dst.toUInt32.toNat).proceed
  | .ret =>
    match vm.callStack with
    | s :: ss :: frames =>
      let vm := { vm with
        variableStack := vm.variableStack.take s.vp
        operandStack := vm.operandStack.takeD s.fp 0 }
      { vm.jump s.returnAddress with callStack := ss :: frames, fp := ss.fp }.proceed
    | _ => vm.fail .retUnderflow
  | .testJumpIfFalse => vm.testJump insn "TEST_JUMP_IF_FALSE" (· == 0)
  | .testJumpIfTrue => vm.testJump insn "TEST_JUMP_IF_TRUE" (· != 0)
  | .printNum => vm.getFromStack insn "PRINT_NUM" fun arg vm =>
    { vm with output := vm.output ++ [decimal arg] }.proceed
  | .printStr => { vm with output := vm.output ++ [vm.stringAcc] }.proceed
  | .nop => vm.proceed
  | .assignVar | .assignVar0 | .assignVar1 | .numericInvert =>
    vm.fail (.unexpectedInstruction insn.toByte)

/-- One round of `while(!at_eof())`. -/
def step (f : VariableFactory W H) (vm : VM W H) : Step W H :=
  match vm.rest with
  | [] => .inr (.success, vm)
  | b :: _ =>
    let vm := { vm with ip := vm.ip + 1 }
    match OpCode.ofByte b with
    | none => vm.fail (.unexpectedInstruction b)
    | some insn => vm.executeInsn f insn

/-- The machine at the start of a block, as `VM::execute_block` enters it. -/
def enterBlock (vm : VM W H) (blockNum : UInt8) : VM W H :=
  let vm := { vm with blockNum }
  vm.jump vm.getBlockStartIp

/-- `VM::execute_block`, with at most `fuel` rounds. -/
def executeBlock (f : VariableFactory W H) (fuel : Nat) (vm : VM W H) (blockNum : UInt8) :
    Option (Verdict × VM W H) :=
  Run.run (step f) fuel (vm.enterBlock blockNum)

end VM

end OpenmrnCue.Logic
