import OpenmrnCue.Logic.Driver

/-! The grammar of the logic language and its semantic actions.  A tree stands for a derivation of
the grammar, and `build` runs the actions of its productions in the order of the parser: it threads
the driver through them, and an identifier becomes the token that the scanner makes of it at that
point.  The parser reads one token ahead, which `lookaheadOk` takes into account. -/

namespace OpenmrnCue.Logic

mutual

/-- The productions of `exp`, less the parentheses. -/
inductive ExpTree
  | binary (op : NumericOp) (left right : ExpTree)
  | number (n : Int32)
  | minusNumber (n : Int32)
  | intVar (name : String)
  | intFunction (name : String) (args : List PolyTree)

/-- The productions of `boolexp`, less the parentheses. -/
inductive BoolExpTree
  | constBool (value : Bool)
  | boolCmp (op : BoolOp) (left right : BoolExpTree)
  | not (e : BoolExpTree)
  | and (left right : BoolExpTree)
  | or (left right : BoolExpTree)
  | intComp (op : CompOp) (left right : ExpTree)
  | boolVar (name : String)
  | boolFunction (name : String) (args : List PolyTree)

/-- The productions of `poly_expression`. -/
inductive PolyTree
  | exp (e : ExpTree)
  | boolexp (e : BoolExpTree)
  | refInt (name : String)
  | refBool (name : String)

end

/-- `variable_parameters`: the bound of an exported variable, and its name on the outside. -/
inductive VariableParameter
  | maxState (n : Int32)
  | description (text : Bytes)

/-- `optional_assignment_expression`. -/
inductive InitialTree
  | none
  | exp (e : ExpTree)
  | boolexp (e : BoolExpTree)

/-- One variable of a declaration. -/
structure Declarator where
  name : String
  params : List VariableParameter
  init : InitialTree

/-- `function_arg`. -/
structure ArgumentTree where
  isMutable : Bool
  type : DataType
  name : String

/-- `printonearg`. -/
inductive PrintTree
  | text (t : Bytes)
  | exp (e : ExpTree)

/-- The productions of `command`.  The `else` of a conditional is followed by braces or by another
conditional. -/
inductive CommandTree
  | assignInt (name : String) (value : ExpTree)
  | assignBool (name : String) (value : BoolExpTree)
  | braced (commands : List CommandTree)
  | ifThen (condition : BoolExpTree) (thenCase : List CommandTree)
  | ifThenElse (condition : BoolExpTree) (thenCase : List CommandTree) (elseCase : CommandTree)
  | variableDecl (storage : Access) (type : DataType) (first : Declarator)
      (more : List Declarator) (semicolon : Bool)
  | function (storage : Access) (type : DataType) (name : String) (args : List ArgumentTree)
      (body : List CommandTree)
  | fncall (name : String) (args : List PolyTree)
  | print (first : PrintTree) (more : List PrintTree)
  | terminate

/-! ### Expressions -/

section

variable (d : Driver)

mutual

def ExpTree.build : ExpTree → Except String IntExpression
  | .binary op left right => do
    return .intBinaryExpression op (← left.build) (← right.build)
  | .number n => return .intConstant n
  | .minusNumber n => return .intConstant (-n)
  | .intVar name => do
    d.expect name .intVarId
    return .intVariable (← d.getVariableReference name .int)
  | .intFunction name args => do
    d.expect name .intFnId
    return .intFunctionCall (← d.functionCallExp name (← PolyTree.buildAll args))

def BoolExpTree.build : BoolExpTree → Except String BooleanExpression
  | .constBool value => return .booleanConstant value
  | .boolCmp op left right => do return .boolCmp op (← left.build) (← right.build)
  | .not e => do return .boolNot (← e.build)
  | .and left right => do return .boolAnd (← left.build) (← right.build)
  | .or left right => do return .boolOr (← left.build) (← right.build)
  | .intComp op left right => do return .intComp op (← left.build) (← right.build)
  | .boolVar name => do
    d.expect name .boolVarId
    return .boolVariable (← d.getVariableReference name .bool)
  | .boolFunction name args => do
    d.expect name .boolFnId
    return .boolFunctionCall (← d.functionCallExp name (← PolyTree.buildAll args))

def PolyTree.build : PolyTree → Except String PolymorphicExpression
  | .exp e => do return .intExpr (← e.build)
  | .boolexp e => do return .boolExpr (← e.build)
  | .refInt name => do
    d.expect name .intVarId
    return .var .int (← d.getVariableReference name .int)
  | .refBool name => do
    d.expect name .boolVarId
    return .var .bool (← d.getVariableReference name .bool)

def PolyTree.buildAll : List PolyTree → Except String (List PolymorphicExpression)
  | [] => return []
  | arg :: args => do return (← arg.build) :: (← PolyTree.buildAll args)

end

def InitialTree.build : InitialTree → Except String (Option Initializer)
  | .none => return .none
  | .exp e => do return some (.int (← e.build d))
  | .boolexp e => do return some (.bool (← e.build d))

def PrintTree.build : PrintTree → Except String Command
  | .text t => return .printString t
  | .exp e => do return .printInt (← e.build d)

def PrintTree.buildAll : List PrintTree → Except String (List Command)
  | [] => return []
  | arg :: args => do return (← arg.build d) :: (← PrintTree.buildAll args)

end

/-- The actions of `variable_parameters`: the description and the number of states. -/
def VariableParameter.apply (storage : Access) (type : DataType) :
    List VariableParameter → Bytes × Int → Except String (Bytes × Int)
  | [], decl => return decl
  | .maxState n :: params, (name, _) =>
    if storage ≠ .indirectVar then
      .error "syntax error: export parameters are only valid for exported variables."
    else if type ≠ .int then
      .error "syntax error: max_state is only valid for exported int variable."
    else VariableParameter.apply storage type params (name, n.toInt + 1)
  | .description text :: params, (_, numStates) =>
    if storage ≠ .indirectVar then
      .error "syntax error: export parameters are only valid for exported variables."
    else VariableParameter.apply storage type params (text, numStates)

/-! ### Commands -/

/-- One variable of a declaration.  The storage and the context are the same for all of them, so the
test of the first one is made here. -/
def Declarator.build (storage : Access) (type : DataType) (d : Driver) (v : Declarator) :
    Except String (Command × Driver) := do
  d.expect v.name .undeclId
  let (declName, declNumStates) ← VariableParameter.apply storage type v.params ([], -1)
  let init ← v.init.build d
  if storage ≠ .localVar ∧ !d.isGlobalContext then
    .error "Exported and static variables must appear in the global context."
  else d.declareVariable storage type declName declNumStates v.name init

def Declarator.buildAll (storage : Access) (type : DataType) (d : Driver) :
    List Declarator → Except String (List Command × Driver)
  | [] => return ([], d)
  | v :: vs => do
    let (c, d) ← v.build storage type d
    let (cs, d) ← Declarator.buildAll storage type d vs
    return (c :: cs, d)

/-- A list of commands of one declaration or `print`: a sequence, unless it has one element. -/
def sequence (c : Command) (cs : List Command) : Command :=
  if cs = [] then c else .commandSequence (c :: cs) (-1) (-1)

/-- The closing brace of `braced_commands`; `frameSize` is from the opening brace. -/
def closeBrace (frameSize : Nat) (commands : List Command) (d : Driver) : Command × Driver :=
  if d.currentContext.frameSize ≠ frameSize then
    (.commandSequence commands d.currentContext.frameSize frameSize,
      (d.trimStack frameSize).setFrameSize frameSize)
  else (.commandSequence commands d.currentContext.frameSize (-1), d)

/-- `function_arg_list`. -/
def ArgumentTree.buildAll (d : Driver) :
    List ArgumentTree → Except String (List FunctionArgument × Driver)
  | [] => return ([], d)
  | arg :: args => do
    d.expect arg.name .undeclId
    let access := if arg.isMutable then .indirectVar else .localVar
    let (_, d) ← d.allocateVariable arg.name arg.type access
    let (formals, d) ← ArgumentTree.buildAll d args
    return ({ name := arg.name, type := arg.type, access } :: formals, d)

/-- The loop that checks the offsets of the arguments of a function, from the `i`-th one on. -/
def checkOffsets (d : Driver) : Nat → List FunctionArgument → Except String Unit
  | _, [] => .ok ()
  | i, formal :: formals =>
    match d.findSymbol formal.name with
    | none => .error s!"internal error: could not find argument {formal.name}"
    | some s =>
      if s.fpOffset ≠ i then
        .error (s!"internal error: for argument {formal.name}, expected fp offset {i}, " ++
          s!"actual {s.fpOffset}")
      else checkOffsets d (i + 1) formals

/-- The head of a function definition: the driver is inside of the function afterwards. -/
def openFunction (d : Driver) (storage : Access) (type : DataType) (name : String)
    (args : List ArgumentTree) : Except String (List FunctionArgument × Driver) := do
  d.expect name .undeclId
  if !d.isGlobalContext then
    .error "Function definition is only allowed in the toplevel context."
  else if storage ≠ .localVar then
    .error "Function definition cannot have exported storage specifier."
  else
    let s ← d.allocateSymbol name .function
    let d := (d.setSymbol name { s with dataType := type }).enterFunction type
    let (formals, d) ← ArgumentTree.buildAll d args
    match d.findSymbol name with
    | none => .error "Internal error - symbol not found."
    | some _ =>
      let d := d.modifySymbol name fun s => { s with args := some formals }
      checkOffsets d 0 formals
      return (formals, d)

def CommandTree.isElseCase : CommandTree → Bool
  | .braced _ | .ifThen .. | .ifThenElse .. => true
  | _ => false

/-- A call as a command, to a function of any type. -/
def Driver.expectFunction (d : Driver) (name : String) : Except String Unit :=
  if d.scanId name ∈ [IdToken.intFnId, .boolFnId, .voidFnId] then .ok ()
  else .error "syntax error"

mutual

def CommandTree.build (d : Driver) : CommandTree → Except String (Command × Driver)
  | .assignInt name value => do
    d.expect name .intVarId
    let value ← value.build d
    return (.numericAssignment (← d.getVariableReference name .int) value, d)
  | .assignBool name value => do
    d.expect name .boolVarId
    let value ← value.build d
    return (.booleanAssignment (← d.getVariableReference name .bool) value, d)
  | .braced commands => do
    let (cs, d') ← CommandTree.buildAll d commands
    return closeBrace d.currentContext.frameSize cs d'
  | .ifThen condition thenCase => do
    let condition ← condition.build d
    let (cs, d') ← CommandTree.buildAll d thenCase
    let (thenCase, d) := closeBrace d.currentContext.frameSize cs d'
    return (.ifThen condition thenCase, d)
  | .ifThenElse condition thenCase elseCase => do
    let condition ← condition.build d
    let (cs, d') ← CommandTree.buildAll d thenCase
    let (thenCase, d) := closeBrace d.currentContext.frameSize cs d'
    if elseCase.isElseCase then
      let (elseCase, d) ← elseCase.build d
      return (.ifThenElse condition thenCase elseCase, d)
    else .error "syntax error"
  | .variableDecl storage type first more _ => do
    let (c, d) ← first.build storage type d
    let (cs, d) ← Declarator.buildAll storage type d more
    return (sequence c cs, d)
  | .function storage type name args body => do
    let (formals, d) ← openFunction d storage type name args
    let (cs, d) ← CommandTree.buildAll d body
    return (.function name type formals cs, d.exitFunction)
  | .fncall name args => do
    d.expectFunction name
    let args ← PolyTree.buildAll d args
    return (.functionCall (← d.getFunctionCall name args false), d)
  | .print first more => do
    let c ← first.build d
    let cs ← PrintTree.buildAll d more
    return (sequence c cs, d)
  | .terminate => return (.terminate, d)

def CommandTree.buildAll (d : Driver) : List CommandTree → Except String (List Command × Driver)
  | [] => return ([], d)
  | c :: cs => do
    let (c, d) ← c.build d
    let (cs, d) ← CommandTree.buildAll d cs
    return (c :: cs, d)

end

/-! ### Lookahead -/

/-- The name that a declaration without a semicolon declares last: the token behind it is scanned
before. -/
def CommandTree.pending : CommandTree → Option String
  | .variableDecl _ _ first more false => some ((more.getLast?.map Declarator.name).getD first.name)
  | _ => none

/-- The identifier at the start of a command. -/
def CommandTree.leading : CommandTree → Option String
  | .assignInt name _ | .assignBool name _ | .fncall name _ => some name
  | _ => none

mutual

/-- No identifier is scanned while the declaration of it is still to be entered. -/
def CommandTree.lookaheadOk : CommandTree → Bool
  | .braced commands => CommandTree.lookaheadOkAll none commands
  | .ifThen _ thenCase => CommandTree.lookaheadOkAll none thenCase
  | .ifThenElse _ thenCase elseCase =>
    CommandTree.lookaheadOkAll none thenCase && elseCase.lookaheadOk
  | .function _ _ _ _ body => CommandTree.lookaheadOkAll none body
  | _ => true

def CommandTree.lookaheadOkAll (pending : Option String) : List CommandTree → Bool
  | [] => true
  | c :: cs =>
    (pending.isNone || pending != c.leading) && c.lookaheadOk &&
      CommandTree.lookaheadOkAll c.pending cs

end

/-- `Driver::parse_file` on the derivation of a program: `commands_` and the driver. -/
def Driver.parseFile (d : Driver) (unit : List CommandTree) :
    Except String (List Command × Driver) :=
  if CommandTree.lookaheadOkAll none unit then CommandTree.buildAll d unit
  else .error "syntax error"

/-- The parser accepts the program, and the result passes a test. -/
def accepted (unit : List CommandTree) (test : List Command → Driver → Bool) : Bool :=
  match (Driver.start 0).parseFile unit with
  | .ok (commands, d) => test commands d
  | .error _ => false

theorem accepted_eq_true {unit : List CommandTree} {test : List Command → Driver → Bool}
    (h : accepted unit test = true) :
    ∃ commands d, (Driver.start 0).parseFile unit = .ok (commands, d) ∧ test commands d = true := by
  unfold accepted at h
  split at h
  · next commands d hparse => exact ⟨commands, d, hparse, h⟩
  · cases h

end OpenmrnCue.Logic
