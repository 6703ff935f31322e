import OpenmrnCue.Logic.Symbol

/-! The syntax tree of the logic language and its serialization to bytecode.  `serialize(output)`
becomes a function to the bytes that are appended, except that commands also get the output so far
and the driver: a function definition stores its address, the size of the output, in the symbol
table, and a call reads it from there. -/

namespace OpenmrnCue.Logic

/-- The operators of `IntBinaryExpression`. -/
inductive NumericOp
  | plus | minus | mul | div | mod
  deriving DecidableEq, Repr

def NumericOp.opcode : NumericOp → OpCode
  | plus => .numericPlus
  | minus => .numericMinus
  | mul => .numericMul
  | div => .numericDiv
  | mod => .numericMod

/-- The operators of `IntComp`. -/
inductive CompOp
  | leq | geq | lt | gt | eq | neq
  deriving DecidableEq, Repr

def CompOp.opcode : CompOp → OpCode
  | leq => .numericLeq
  | geq => .numericGeq
  | lt => .numericLt
  | gt => .numericGt
  | eq => .numericEq
  | neq => .numericNeq

/-- The operators of `BoolCmp`. -/
inductive BoolOp
  | eq | neq
  deriving DecidableEq, Repr

def BoolOp.opcode : BoolOp → OpCode
  | eq => .boolEq
  | neq => .boolNeq

/-- `LocalVariableReference`, for a slot that holds the value, and `GlobalVariableReference`, for a
slot that holds an index in the variable stack. -/
inductive VariableReference
  | localVar (name : String) (fpOffset : Int)
  | globalVar (name : String) (fpOffset : Int)
  deriving DecidableEq, Repr

mutual

/-- The subclasses of `IntExpression`. -/
inductive IntExpression
  | intVariable (var : VariableReference)
  | intBinaryExpression (op : NumericOp) (left right : IntExpression)
  | intConstant (value : Int32)
  | intFunctionCall (call : FunctionCall)

/-- The subclasses of `BooleanExpression`. -/
inductive BooleanExpression
  | boolVariable (var : VariableReference)
  | intComp (op : CompOp) (left right : IntExpression)
  | booleanConstant (value : Bool)
  | boolNot (left : BooleanExpression)
  | boolAnd (left right : BooleanExpression)
  | boolCmp (op : BoolOp) (left right : BooleanExpression)
  | boolOr (left right : BooleanExpression)
  | boolFunctionCall (call : FunctionCall)

/-- `PolymorphicExpression`: exactly one of its pointers is set, or none for `void`. -/
inductive PolymorphicExpression
  | boolExpr (e : BooleanExpression)
  | intExpr (e : IntExpression)
  | var (type : DataType) (v : VariableReference)
  | void

/-- `FunctionCall`.  The reference `fn_` into the symbol table is the name of the function. -/
inductive FunctionCall
  | mk (stackOfs : Nat) (name : String) (args : List PolymorphicExpression) (needRetval : Bool)

end

/-- The initial value of a variable: an expression of either kind. -/
inductive Initializer
  | int (e : IntExpression)
  | bool (e : BooleanExpression)

/-- The subclasses of `Command`.  A function body is a `CommandSequence` without trimming, given
here by its commands; `ifThen` is an `IfThenElse` without an `else_case_`. -/
inductive Command
  | empty
  | commandSequence (commands : List Command) (trimStackFrom trimStackTo : Int)
  | indirectVarCreate (name : Bytes) (fpOffset guid : Int) (type : DataType) (numStates : Int)
  | staticVarCreate (name : String) (type : DataType) (guid fpOffset : Int) (init : Initializer)
  | localVarCreate (name : String) (type : DataType) (fpOffset : Int) (init : Initializer)
  | numericAssignment (var : VariableReference) (value : IntExpression)
  | booleanAssignment (var : VariableReference) (value : BooleanExpression)
  | ifThen (condition : BooleanExpression) (thenCase : Command)
  | ifThenElse (condition : BooleanExpression) (thenCase elseCase : Command)
  | function (name : String) (returnType : DataType) (args : List FunctionArgument)
      (body : List Command)
  | functionCall (call : FunctionCall)
  | printString (text : Bytes)
  | printInt (value : IntExpression)
  | terminate

/-! ### Serialization -/

/-- An opcode with an integer behind it. -/
def opArg (op : OpCode) (value : Int) : Bytes := op.toByte :: appendVarint (.ofInt value)

namespace VariableReference

def serializeFetch : VariableReference → Bytes
  | localVar _ fpOffset => opArg .loadFpRel fpOffset
  | globalVar _ fpOffset => opArg .loadFpRel fpOffset ++ [OpCode.indirectLoad.toByte]

def serializeStore : VariableReference → Bytes
  | localVar _ fpOffset => opArg .storeFpRel fpOffset
  | globalVar _ fpOffset => opArg .loadFpRel fpOffset ++ [OpCode.indirectStore.toByte]

def serializeRef : VariableReference → Bytes
  | localVar _ fpOffset => opArg .createIndirectVar fpOffset
  | globalVar _ fpOffset => opArg .loadFpRel fpOffset

end VariableReference

section

-- The address of a function: `fp_offset_` of its symbol when the call is serialized.
variable (address : String → Int)

mutual

def IntExpression.serialize : IntExpression → Bytes
  | .intVariable v => v.serializeFetch
  | .intBinaryExpression op left right =>
    left.serialize ++ right.serialize ++ [op.opcode.toByte]
  | .intConstant value =>
    if value = 0 then [OpCode.pushConstant0.toByte]
    else if value = 1 then [OpCode.pushConstant1.toByte]
    else OpCode.pushConstant.toByte :: appendVarint value
  | .intFunctionCall call => call.serialize

def BooleanExpression.serialize : BooleanExpression → Bytes
  | .boolVariable v => v.serializeFetch
  | .intComp op left right => left.serialize ++ right.serialize ++ [op.opcode.toByte]
  | .booleanConstant value =>
    [if value then OpCode.pushConstant1.toByte else OpCode.pushConstant0.toByte]
  | .boolNot left => left.serialize ++ [OpCode.boolNot.toByte]
  | .boolAnd left right =>
    let rhs := OpCode.popOp.toByte :: right.serialize
    left.serialize ++ [OpCode.pushTop.toByte] ++ opArg .testJumpIfFalse rhs.length ++ rhs
  | .boolCmp op left right => left.serialize ++ right.serialize ++ [op.opcode.toByte]
  | .boolOr left right =>
    let rhs := OpCode.popOp.toByte :: right.serialize
    left.serialize ++ [OpCode.pushTop.toByte] ++ opArg .testJumpIfTrue rhs.length ++ rhs
  | .boolFunctionCall call => call.serialize

def PolymorphicExpression.serialize : PolymorphicExpression → Bytes
  | .boolExpr e => e.serialize
  | .intExpr e => e.serialize
  | .var _ v => v.serializeRef
  | .void => [OpCode.pushConstant0.toByte]

def PolymorphicExpression.serializeAll : List PolymorphicExpression → Bytes
  | [] => []
  | arg :: args => arg.serialize ++ PolymorphicExpression.serializeAll args

def FunctionCall.serialize : FunctionCall → Bytes
  | .mk stackOfs name args needRetval =>
    opArg .checkStackLength stackOfs ++ [OpCode.pushConstant0.toByte] ++
      PolymorphicExpression.serializeAll args ++ opArg .pushConstant (address name) ++
      opArg .call args.length ++ (if needRetval then [] else [OpCode.popOp.toByte])

end

def Initializer.serialize : Initializer → Bytes
  | int e => e.serialize address
  | bool e => e.serialize address

end

/-- `fp_offset_` of the symbol that `fn_` refers to. -/
def Driver.address (d : Driver) (name : String) : Int :=
  match d.findFunction name with
  | some s => s.fpOffset
  | none => -1

/-- `Function::register_function`: `root` tells whether the output is the one that
`Driver::serialize` writes to. -/
def Driver.registerFunction (d : Driver) (name : String) (root : Bool) (size : Nat) : Driver :=
  if !root then d.error s!"Function {name} not defined at the top level."
  else
    match d.findSymbol name with
    | none => d.error s!"Function {name}: symbol table entry not found during serialize."
    | some _ => d.modifySymbol name fun s => { s with fpOffset := size }

mutual

/-- `Command::serialize`: the output after the command, and the driver. -/
def Command.serialize (root : Bool) (d : Driver) (output : Bytes) : Command → Bytes × Driver
  | .empty => (output, d)
  | .commandSequence commands trimStackFrom trimStackTo =>
    let (output, d) := Command.serializeAll root d output commands
    if 0 ≤ trimStackFrom then
      let output := output ++ opArg .checkStackLength trimStackFrom
      if 0 ≤ trimStackTo then (output ++ opArg .leave (trimStackFrom - trimStackTo), d)
      else (output, d)
    else (output, d)
  | .indirectVarCreate _ _ guid _ _ =>
    (output ++ opArg .pushConstant guid ++ opArg .pushConstant 0 ++ [OpCode.importVar.toByte], d)
  | .staticVarCreate name _ guid fpOffset init =>
    let code := init.serialize d.address ++
      (VariableReference.globalVar name fpOffset).serializeStore
    (output ++ opArg .createStaticVar guid ++ opArg .testJumpIfFalse code.length ++ code, d)
  | .localVarCreate _ _ fpOffset init =>
    (output ++ opArg .checkStackLength fpOffset ++ init.serialize d.address, d)
  | .numericAssignment var value =>
    (output ++ value.serialize d.address ++ var.serializeStore, d)
  | .booleanAssignment var value =>
    (output ++ value.serialize d.address ++ [OpCode.boolProject.toByte] ++
      var.serializeStore, d)
  | .ifThen condition thenCase =>
    let output := output ++ condition.serialize d.address
    let (thenBlock, d) := thenCase.serialize false d []
    (output ++ opArg .testJumpIfFalse thenBlock.length ++ thenBlock, d)
  | .ifThenElse condition thenCase elseCase =>
    let output := output ++ condition.serialize d.address
    let (thenBlock, d) := thenCase.serialize false d []
    let (elseBlock, d) := elseCase.serialize false d []
    let thenBlock := thenBlock ++ opArg .jump elseBlock.length
    (output ++ opArg .testJumpIfFalse thenBlock.length ++ thenBlock ++ elseBlock, d)
  | .function name _ _ body =>
    let (tmp, d) := Command.serializeAll false d [] body
    let tmp := tmp ++ [OpCode.ret.toByte]
    let output := output ++ opArg .jump tmp.length
    (output ++ tmp, d.registerFunction name root output.length)
  | .functionCall call => (output ++ call.serialize d.address, d)
  | .printString text =>
    (output ++ [OpCode.loadString.toByte] ++ appendString text ++ [OpCode.printStr.toByte], d)
  | .printInt value => (output ++ value.serialize d.address ++ [OpCode.printNum.toByte], d)
  | .terminate => (output ++ [OpCode.terminate.toByte], d)

def Command.serializeAll (root : Bool) (d : Driver) (output : Bytes) :
    List Command → Bytes × Driver
  | [] => (output, d)
  | c :: cs =>
    let (output, d) := c.serialize root d output
    Command.serializeAll root d output cs

end

/-- `Command::serialize_preamble`, which only `IndirectVarCreate` overrides. -/
def Command.serializePreamble : Command → Bytes
  | .indirectVarCreate name _ guid type numStates =>
    OpCode.loadString.toByte :: appendString name ++ opArg .createVar guid ++
      appendVarint (.ofInt (if type = .bool then -1 else numStates))
  | _ => []

/-- `Driver::serialize` on the commands of the program, into an empty output. -/
def Driver.serialize (d : Driver) (commands : List Command) : Bytes × Driver :=
  let preamble := commands.flatMap Command.serializePreamble ++ [OpCode.terminate.toByte]
  let output := OpCode.ifPreamble.toByte :: opArg .testJumpIfFalse preamble.length ++ preamble
  Command.serializeAll true d output commands

end OpenmrnCue.Logic
