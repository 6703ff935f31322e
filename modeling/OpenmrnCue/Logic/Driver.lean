import OpenmrnCue.Logic.AST

/-! What the driver does for the parser: the tokens that the scanner makes of identifiers, variable
declarations, references and calls.  Every error that the driver reports makes the parse fail, so an
action either succeeds or ends the parse with its message. -/

namespace OpenmrnCue.Logic

/-- The tokens of an identifier. -/
inductive IdToken
  | undeclId | intVarId | boolVarId | intFnId | boolFnId | voidFnId | unknown
  deriving DecidableEq, Repr

namespace Driver

/-- The action of the scanner on an identifier. -/
def scanId (d : Driver) (name : String) : IdToken :=
  match d.findSymbol name with
  | none => .undeclId
  | some s =>
    match s.symbolType, s.dataType with
    | .function, .int => .intFnId
    | .function, .bool => .boolFnId
    | .function, .void => .voidFnId
    | .variable, .int => .intVarId
    | .variable, .bool => .boolVarId
    -- Reported as "unknown symbol type".
    | .variable, .void => .unknown

/-- The parser wants the token `token` where the identifier `name` stands. -/
def expect (d : Driver) (name : String) (token : IdToken) : Except String Unit :=
  if d.scanId name = token then .ok () else .error "syntax error"

def getVariable (d : Driver) (name : String) (expectedType : DataType) : Except String Symbol :=
  match d.findSymbol name with
  | none => .error s!"Undeclared variable '{name}'"
  | some s =>
    if s.dataType ≠ expectedType then
      .error
        s!"'{name}' incorrect type; expected {expectedType.toText}, actual type {s.dataType.toText}"
    else .ok s

def getVariableReference (d : Driver) (name : String) (type : DataType) :
    Except String VariableReference := do
  let s ← d.getVariable name type
  match s.access with
  | .localVar => return .localVar name s.fpOffset
  | .indirectVar => return .globalVar name s.fpOffset
  | .staticVar => .error "Unexpected storage modifier for variable."

end Driver

def PolymorphicExpression.isVariable : PolymorphicExpression → Bool
  | .var _ _ => true
  | _ => false

def PolymorphicExpression.getDataType : PolymorphicExpression → DataType
  | .boolExpr _ => .bool
  | .intExpr _ => .int
  | .var type _ => type
  | .void => .void

/-- The loop of `get_function_call` over the arguments, for lists of the same length. -/
def checkArguments (name : String) :
    List FunctionArgument → List PolymorphicExpression → Except String Unit
  | formal :: formals, arg :: args => do
    if arg.getDataType ≠ formal.type then
      .error (s!"Syntax error calling function {name}. Type error supplying argument " ++
        s!"{formal.name}, expected {formal.type.toText}, actual {arg.getDataType.toText}.")
    else if arg.isVariable && formal.access ≠ .indirectVar then
      .error (s!"Syntax error calling function {name}. Argument {formal.name} should " ++
        "be an expression, but was given a reference. Remove '&'.")
    else if !arg.isVariable && formal.access ≠ .localVar then
      .error (s!"Syntax error calling function {name}. Argument {formal.name} should " ++
        "be a reference, but was given an expression. Use &variable_name syntax.")
    else checkArguments name formals args
  | _, _ => .ok ()

namespace Driver

/-- `Driver::get_function_call`. -/
def getFunctionCall (d : Driver) (name : String) (args : List PolymorphicExpression)
    (needResult : Bool) : Except String FunctionCall :=
  match d.findFunction name with
  | none => .error s!"Syntax error: function {name} is not declared"
  | some sym =>
    match sym.args with
    | none => .error "internal error: sym_args_ is null"
    | some formals => do
      if args.length ≠ formals.length then
        .error (s!"Syntax error. Function {name} takes {formals.length} argument(s), " ++
          s!"given {args.length}.")
      else
        checkArguments name formals args
        return .mk d.currentContext.frameSize name args needResult

/-- A call inside of an expression, which is built without `get_function_call`. -/
def functionCallExp (d : Driver) (name : String) (args : List PolymorphicExpression) :
    Except String FunctionCall :=
  match d.findFunction name with
  | none => .error "syntax error"
  | some _ => return .mk d.currentContext.frameSize name args true

end Driver

def Initializer.getDataType : Initializer → DataType
  | .int _ => .int
  | .bool _ => .bool

/-- The initial value of a variable that is declared without one. -/
def Initializer.default : DataType → Except String Initializer
  | .bool => .ok (.bool (.booleanConstant false))
  | .int => .ok (.int (.intConstant 0))
  | .void => .error "Variables cannot be void type."

/-- `Driver::declare_variable`.  The fields `decl_*` of the driver are arguments here; an empty
`declName` stands for the name of the variable. -/
def Driver.declareVariable (d : Driver) (declStorage : Access) (declType : DataType)
    (declName : Bytes) (declNumStates : Int) (name : String) (init : Option Initializer) :
    Except String (Command × Driver) := do
  let access := if declStorage = .staticVar then .indirectVar else declStorage
  let (s, d) ← d.allocateVariable name declType access
  match declStorage with
  | .indirectVar =>
    if init.isSome then .error "Exported variable declaration cannot have an initializer."
    else if declType = .int ∧ declNumStates < 0 then
      .error "Exported int variable must be declared with num state information."
    else
      let (guid, d) := d.allocateGuid
      let text := if declName = [] then textBytes name else declName
      return (.indirectVarCreate text s.fpOffset guid declType declNumStates, d)
  | .staticVar =>
    let value ← initialValue
    let (guid, d) := d.allocateGuid
    return (.staticVarCreate name declType guid s.fpOffset value, d)
  | .localVar =>
    let value ← initialValue
    return (.localVarCreate name declType s.fpOffset value, d)
where
  initialValue : Except String Initializer :=
    match init with
    | some value =>
      if value.getDataType ≠ declType then
        .error (s!"Incorrect type in assignment; expected {declType.toText}, " ++
          s!"got {value.getDataType.toText}.")
      else .ok value
    | none => Initializer.default declType

end OpenmrnCue.Logic
