import OpenmrnCue.Logic.AST

/-! Compiled code as a list of instructions.  `emit` follows `serialize` constructor by constructor
and keeps what the bytes do not show: where an instruction begins, where a call begins and how many
words of an unfinished expression are on the stack there, and where the bodies of the functions are.
-/

namespace OpenmrnCue.Logic

/-- The start of a call: the function, the address that is pushed for it, the operand of `CALL`, and
the number of words of an unfinished expression on the stack. -/
structure CallSite where
  name : String
  address : Int
  operand : Nat
  depth : Nat
  deriving DecidableEq, Repr

/-- A piece of code: an instruction, or the mark of a call, which has no bytes. -/
inductive Item
  | insn (op : OpCode)
  | insnArg (op : OpCode) (arg : Int)
  | loadString (text : Bytes)
  | createVar (guid numStates : Int)
  | callSite (site : CallSite)
  deriving DecidableEq, Repr

def Item.bytes : Item → Bytes
  | insn op => [op.toByte]
  | insnArg op arg => opArg op arg
  | loadString text => OpCode.loadString.toByte :: appendString text
  | createVar guid numStates => opArg .createVar guid ++ appendVarint (.ofInt numStates)
  | callSite _ => []

def itemBytes (items : List Item) : Bytes := items.flatMap Item.bytes

@[simp] theorem itemBytes_nil : itemBytes [] = [] := rfl

@[simp] theorem itemBytes_cons (item : Item) (items : List Item) :
    itemBytes (item :: items) = item.bytes ++ itemBytes items := by simp [itemBytes]

@[simp] theorem itemBytes_append (items items' : List Item) :
    itemBytes (items ++ items') = itemBytes items ++ itemBytes items' := by simp [itemBytes]

/-- A function in the code: `address` is the offset of the first byte of `body`. -/
structure CompiledFunction where
  name : String
  args : List FunctionArgument
  address : Nat
  body : List Item
  deriving DecidableEq, Repr

/-- The offset behind the body. -/
def CompiledFunction.finish (cf : CompiledFunction) : Nat := cf.address + (itemBytes cf.body).length

/-! ### Expressions -/

namespace VariableReference

def emitFetch : VariableReference → List Item
  | localVar _ fpOffset => [.insnArg .loadFpRel fpOffset]
  | globalVar _ fpOffset => [.insnArg .loadFpRel fpOffset, .insn .indirectLoad]

def emitStore : VariableReference → List Item
  | localVar _ fpOffset => [.insnArg .storeFpRel fpOffset]
  | globalVar _ fpOffset => [.insnArg .loadFpRel fpOffset, .insn .indirectStore]

def emitRef : VariableReference → List Item
  | localVar _ fpOffset => [.insnArg .createIndirectVar fpOffset]
  | globalVar _ fpOffset => [.insnArg .loadFpRel fpOffset]

end VariableReference

section

variable (address : String → Int)

mutual

/-- The code of an expression that is evaluated with `depth` words above the variables. -/
def IntExpression.emit (depth : Nat) : IntExpression → List Item
  | .intVariable v => v.emitFetch
  | .intBinaryExpression op left right =>
    left.emit depth ++ right.emit (depth + 1) ++ [.insn op.opcode]
  | .intConstant value =>
    if value = 0 then [.insn .pushConstant0]
    else if value = 1 then [.insn .pushConstant1]
    else [.insnArg .pushConstant value.toInt]
  | .intFunctionCall call => call.emit depth

def BooleanExpression.emit (depth : Nat) : BooleanExpression → List Item
  | .boolVariable v => v.emitFetch
  | .intComp op left right => left.emit depth ++ right.emit (depth + 1) ++ [.insn op.opcode]
  | .booleanConstant value => [.insn (if value then .pushConstant1 else .pushConstant0)]
  | .boolNot left => left.emit depth ++ [.insn .boolNot]
  | .boolAnd left right =>
    let rhs := .insn .popOp :: right.emit depth
    left.emit depth ++ [.insn .pushTop, .insnArg .testJumpIfFalse (itemBytes rhs).length] ++ rhs
  | .boolCmp op left right => left.emit depth ++ right.emit (depth + 1) ++ [.insn op.opcode]
  | .boolOr left right =>
    let rhs := .insn .popOp :: right.emit depth
    left.emit depth ++ [.insn .pushTop, .insnArg .testJumpIfTrue (itemBytes rhs).length] ++ rhs
  | .boolFunctionCall call => call.emit depth

def PolymorphicExpression.emit (depth : Nat) : PolymorphicExpression → List Item
  | .boolExpr e => e.emit depth
  | .intExpr e => e.emit depth
  | .var _ v => v.emitRef
  | .void => [.insn .pushConstant0]

def PolymorphicExpression.emitAll (depth : Nat) : List PolymorphicExpression → List Item
  | [] => []
  | arg :: args => arg.emit depth ++ PolymorphicExpression.emitAll (depth + 1) args

def FunctionCall.emit (depth : Nat) : FunctionCall → List Item
  | .mk stackOfs name args needRetval =>
    [.callSite ⟨name, address name, args.length, depth⟩, .insnArg .checkStackLength stackOfs,
      .insn .pushConstant0] ++ PolymorphicExpression.emitAll (depth + 1) args ++
      [.insnArg .pushConstant (address name), .insnArg .call args.length] ++
      (if needRetval then [] else [.insn .popOp])

end

def Initializer.emit (depth : Nat) : Initializer → List Item
  | int e => e.emit address depth
  | bool e => e.emit address depth

end

/-! ### Commands -/

/-- The code of a command, the functions in it that get an address, and the driver. -/
structure Emitted where
  items : List Item
  functions : List CompiledFunction
  driver : Driver

/-- Code that leaves the driver alone. -/
def Emitted.plain (d : Driver) (items : List Item) : Emitted := ⟨items, [], d⟩

mutual

/-- The code of a command that begins at the offset `ofs` of the output. -/
def Command.emit (root : Bool) (d : Driver) (ofs : Nat) : Command → Emitted
  | .empty => .plain d []
  | .commandSequence commands trimStackFrom trimStackTo =>
    let e := Command.emitAll root d ofs commands
    { e with
      items := e.items ++
        if 0 ≤ trimStackFrom then
          .insnArg .checkStackLength trimStackFrom ::
            if 0 ≤ trimStackTo then [.insnArg .leave (trimStackFrom - trimStackTo)] else []
        else [] }
  | .indirectVarCreate _ _ guid _ _ =>
    .plain d [.insnArg .pushConstant guid, .insnArg .pushConstant 0, .insn .importVar]
  | .staticVarCreate name _ guid fpOffset init =>
    -- The reference to the variable is on the stack already.
    let code := init.emit d.address 1 ++ (VariableReference.globalVar name fpOffset).emitStore
    .plain d
      (.insnArg .createStaticVar guid :: .insnArg .testJumpIfFalse (itemBytes code).length :: code)
  | .localVarCreate _ _ fpOffset init =>
    .plain d (.insnArg .checkStackLength fpOffset :: init.emit d.address 0)
  | .numericAssignment var value => .plain d (value.emit d.address 0 ++ var.emitStore)
  | .booleanAssignment var value =>
    .plain d (value.emit d.address 0 ++ .insn .boolProject :: var.emitStore)
  | .ifThen condition thenCase =>
    let t := thenCase.emit false d 0
    { items := condition.emit d.address 0 ++
        .insnArg .testJumpIfFalse (itemBytes t.items).length :: t.items
      functions := []
      driver := t.driver }
  | .ifThenElse condition thenCase elseCase =>
    let t := thenCase.emit false d 0
    let e := elseCase.emit false t.driver 0
    let thenItems := t.items ++ [.insnArg .jump (itemBytes e.items).length]
    { items := condition.emit d.address 0 ++
        .insnArg .testJumpIfFalse (itemBytes thenItems).length :: (thenItems ++ e.items)
      functions := []
      driver := e.driver }
  | .function name _ args body =>
    let b := Command.emitAll false d 0 body
    let body := b.items ++ [.insn .ret]
    let start := ofs + (opArg .jump (itemBytes body).length).length
    { items := .insnArg .jump (itemBytes body).length :: body
      functions := if root then [⟨name, args, start, body⟩] else []
      driver := b.driver.registerFunction name root start }
  | .functionCall call => .plain d (call.emit d.address 0)
  | .printString text => .plain d [.loadString text, .insn .printStr]
  | .printInt value => .plain d (value.emit d.address 0 ++ [.insn .printNum])
  | .terminate => .plain d [.insn .terminate]

def Command.emitAll (root : Bool) (d : Driver) (ofs : Nat) : List Command → Emitted
  | [] => .plain d []
  | c :: cs =>
    let e := c.emit root d ofs
    let es := Command.emitAll root e.driver (ofs + (itemBytes e.items).length) cs
    ⟨e.items ++ es.items, e.functions ++ es.functions, es.driver⟩

end

/-- The preamble of a program. -/
def Command.emitPreamble : Command → List Item
  | .indirectVarCreate name _ guid type numStates =>
    [.loadString name, .createVar guid (if type = .bool then -1 else numStates)]
  | _ => []

/-- The code in front of the commands. -/
def preambleItems (commands : List Command) : List Item :=
  let preamble := commands.flatMap Command.emitPreamble ++ [.insn .terminate]
  .insn .ifPreamble :: .insnArg .testJumpIfFalse (itemBytes preamble).length :: preamble

/-- The code of a program. -/
def Driver.emit (d : Driver) (commands : List Command) : Emitted :=
  let header := preambleItems commands
  let e := Command.emitAll true d (itemBytes header).length commands
  { e with items := header ++ e.items }

/-! ### The bytes are those of `serialize` -/

theorem VariableReference.bytes_emitFetch (v : VariableReference) :
    itemBytes v.emitFetch = v.serializeFetch := by
  cases v <;> simp [emitFetch, serializeFetch, Item.bytes]

theorem VariableReference.bytes_emitStore (v : VariableReference) :
    itemBytes v.emitStore = v.serializeStore := by
  cases v <;> simp [emitStore, serializeStore, Item.bytes]

theorem VariableReference.bytes_emitRef (v : VariableReference) :
    itemBytes v.emitRef = v.serializeRef := by
  cases v <;> simp [emitRef, serializeRef, Item.bytes]

section

variable (address : String → Int)

mutual

theorem IntExpression.bytes_emit (depth : Nat) : (e : IntExpression) →
    itemBytes (e.emit address depth) = e.serialize address
  | .intVariable v => v.bytes_emitFetch
  | .intBinaryExpression op left right => by
    simp [IntExpression.emit, IntExpression.serialize, left.bytes_emit, right.bytes_emit,
      Item.bytes]
  | .intConstant value => by
    simp only [IntExpression.emit, IntExpression.serialize]
    split
    · rfl
    · split
      · rfl
      · simp [Item.bytes, opArg]
  | .intFunctionCall call => call.bytes_emit depth

theorem BooleanExpression.bytes_emit (depth : Nat) : (e : BooleanExpression) →
    itemBytes (e.emit address depth) = e.serialize address
  | .boolVariable v => v.bytes_emitFetch
  | .booleanConstant value => by cases value <;> rfl
  | .boolFunctionCall call => call.bytes_emit depth
  | .boolNot left => by
    simp [BooleanExpression.emit, BooleanExpression.serialize, left.bytes_emit, Item.bytes]
  | .intComp op left right => by
    simp [BooleanExpression.emit, BooleanExpression.serialize, left.bytes_emit, right.bytes_emit,
      Item.bytes]
  | .boolAnd left right | .boolOr left right | .boolCmp op left right => by
    simp [BooleanExpression.emit, BooleanExpression.serialize, left.bytes_emit, right.bytes_emit,
      Item.bytes]

theorem PolymorphicExpression.bytes_emit (depth : Nat) : (e : PolymorphicExpression) →
    itemBytes (e.emit address depth) = e.serialize address
  | .boolExpr e => e.bytes_emit depth
  | .intExpr e => e.bytes_emit depth
  | .var _ v => v.bytes_emitRef
  | .void => rfl

theorem PolymorphicExpression.bytes_emitAll (depth : Nat) : (es : List PolymorphicExpression) →
    itemBytes (PolymorphicExpression.emitAll address depth es) =
      PolymorphicExpression.serializeAll address es
  | [] => rfl
  | e :: es => by
    simp [PolymorphicExpression.emitAll, PolymorphicExpression.serializeAll, e.bytes_emit,
      PolymorphicExpression.bytes_emitAll (depth + 1) es]

theorem FunctionCall.bytes_emit (depth : Nat) : (call : FunctionCall) →
    itemBytes (call.emit address depth) = call.serialize address
  | .mk stackOfs name args needRetval => by
    cases needRetval <;>
      simp [FunctionCall.emit, FunctionCall.serialize,
        PolymorphicExpression.bytes_emitAll (depth + 1) args, Item.bytes]

end

theorem Initializer.bytes_emit (depth : Nat) (init : Initializer) :
    itemBytes (init.emit address depth) = init.serialize address := by
  cases init with
  | int e => exact e.bytes_emit address depth
  | bool e => exact e.bytes_emit address depth

end

mutual

/-- `emit` and `serialize` do the same. -/
theorem Command.serialize_eq_emit : (c : Command) → ∀ (root : Bool) (d : Driver) (output : Bytes),
    c.serialize root d output =
      (output ++ itemBytes (c.emit root d output.length).items,
        (c.emit root d output.length).driver)
  | .empty, _, _, _ => by simp [Command.serialize, Command.emit, Emitted.plain]
  | .commandSequence cs trimFrom trimTo, root, d, output => by
    simp only [Command.serialize, Command.emit, Command.serializeAll_eq_emit cs root d output]
    by_cases hfrom : 0 ≤ trimFrom <;> by_cases hto : 0 ≤ trimTo <;>
      simp [hfrom, hto, Item.bytes]
  | .ifThen condition thenCase, root, d, output => by
    simp [Command.serialize, Command.emit, thenCase.serialize_eq_emit false d [],
      condition.bytes_emit, Item.bytes]
  | .ifThenElse condition thenCase elseCase, root, d, output => by
    simp [Command.serialize, Command.emit, thenCase.serialize_eq_emit false d [],
      elseCase.serialize_eq_emit false _ [], condition.bytes_emit, Item.bytes]
  | .function name _ args body, root, d, output => by
    simp [Command.serialize, Command.emit, Command.serializeAll_eq_emit body false d [],
      Item.bytes]
  | .indirectVarCreate .., _, _, _ | .staticVarCreate .., _, _, _ | .localVarCreate .., _, _, _
  | .numericAssignment .., _, _, _ | .booleanAssignment .., _, _, _ | .functionCall _, _, _, _
  | .printString _, _, _, _ | .printInt _, _, _, _ | .terminate, _, _, _ => by
    simp [Command.serialize, Command.emit, Emitted.plain, Item.bytes, Initializer.bytes_emit,
      IntExpression.bytes_emit, BooleanExpression.bytes_emit, FunctionCall.bytes_emit,
      VariableReference.bytes_emitStore]

theorem Command.serializeAll_eq_emit : (cs : List Command) →
    ∀ (root : Bool) (d : Driver) (output : Bytes),
    Command.serializeAll root d output cs =
      (output ++ itemBytes (Command.emitAll root d output.length cs).items,
        (Command.emitAll root d output.length cs).driver)
  | [], _, _, _ => by simp [Command.serializeAll, Command.emitAll, Emitted.plain]
  | c :: cs, root, d, output => by
    simp [Command.serializeAll, Command.emitAll, c.serialize_eq_emit root d output,
      Command.serializeAll_eq_emit cs root]

end

theorem bytes_emitPreamble (c : Command) : itemBytes c.emitPreamble = c.serializePreamble := by
  cases c <;> simp [Command.emitPreamble, Command.serializePreamble, Item.bytes]

theorem bytes_preambleItems (commands : List Command) :
    itemBytes (preambleItems commands) =
      let preamble := commands.flatMap Command.serializePreamble ++ [OpCode.terminate.toByte]
      OpCode.ifPreamble.toByte :: opArg .testJumpIfFalse preamble.length ++ preamble := by
  have h : itemBytes (commands.flatMap Command.emitPreamble) =
      commands.flatMap Command.serializePreamble := by
    simp only [itemBytes, List.flatMap_assoc]
    exact congrArg (commands.flatMap ·) (funext bytes_emitPreamble)
  simp [preambleItems, h, Item.bytes]

theorem Driver.serialize_eq_emit (d : Driver) (commands : List Command) :
    d.serialize commands = (itemBytes (d.emit commands).items, (d.emit commands).driver) := by
  simp only [Driver.serialize, Driver.emit, Command.serializeAll_eq_emit, itemBytes_append,
    bytes_preambleItems]

end OpenmrnCue.Logic
