import OpenmrnCue.Logic.Bytecode

/-! The symbol table of the compiler, and the state of the driver around it. -/

namespace OpenmrnCue.Logic

/-- `Symbol::Type`. -/
inductive SymbolType
  | variable | function
  deriving DecidableEq, Repr

/-- `Symbol::DataType`. -/
inductive DataType
  | void | int | bool
  deriving DecidableEq, Repr

/-- `Symbol::datatype_to_string`. -/
def DataType.toText : DataType → String
  | void => "void"
  | int => "int"
  | bool => "bool"

/-- `Symbol::Access`. -/
inductive Access
  | localVar | indirectVar | staticVar
  deriving DecidableEq, Repr

/-- A parameter of a function. -/
structure FunctionArgument where
  name : String
  type : DataType
  access : Access
  deriving DecidableEq, Repr

/-- An entry of the symbol table.  `fpOffset` is the offset of a variable from the frame pointer,
or the address of a function, -1 as long as it is not known.  `args` is what the weak pointer to
the argument list of a function leads to. -/
structure Symbol where
  symbolType : SymbolType
  access : Access
  dataType : DataType
  fpOffset : Int
  args : Option (List FunctionArgument)
  deriving DecidableEq, Repr

/-- The entry that `symbol_table_[name]` makes. -/
def Symbol.fresh : Symbol where
  symbolType := .variable
  access := .localVar
  dataType := .void
  fpOffset := -1
  args := none

/-- `Driver::ParsingContext`. -/
structure ParsingContext where
  symbolTable : String → Option Symbol
  frameSize : Nat

def ParsingContext.empty : ParsingContext where
  symbolTable := fun _ => none
  frameSize := 0

/-- The state of the compiler driver.  `inFunction` tells which context `current_context_` points
at; `errorOutput` has the messages without their locations. -/
structure Driver where
  globalContext : ParsingContext
  functionContext : ParsingContext
  inFunction : Bool
  nextGuid : Int
  errorOutput : List String

namespace Driver

/-- The driver after `clear` and `set_guid_start`. -/
def start (guid : Int) : Driver where
  globalContext := .empty
  functionContext := .empty
  inFunction := false
  nextGuid := guid
  errorOutput := []

def error (d : Driver) (message : String) : Driver :=
  { d with errorOutput := d.errorOutput ++ [message] }

def currentContext (d : Driver) : ParsingContext :=
  if d.inFunction then d.functionContext else d.globalContext

def isGlobalContext (d : Driver) : Bool := !d.inFunction

def setContext (d : Driver) (c : ParsingContext) : Driver :=
  if d.inFunction then { d with functionContext := c } else { d with globalContext := c }

def setFrameSize (d : Driver) (n : Nat) : Driver :=
  d.setContext { d.currentContext with frameSize := n }

def setSymbol (d : Driver) (name : String) (s : Symbol) : Driver :=
  d.setContext
    { d.currentContext with
      symbolTable := Function.update d.currentContext.symbolTable name (some s) }

/-- `Driver::trim_stack`, with the comparison that the source makes. -/
def trimStack (d : Driver) (newSize : Nat) : Driver :=
  d.setContext
    { d.currentContext with
      symbolTable := fun name =>
        (d.currentContext.symbolTable name).filter fun s =>
          !(decide (0 ≤ s.fpOffset) && decide (s.fpOffset ≤ newSize)) }

/-- `Driver::allocate_symbol`: the new entry is not in the table yet, so that the caller can fill it
in before `setSymbol`. -/
def allocateSymbol (d : Driver) (name : String) (type : SymbolType) : Except String Symbol :=
  match d.currentContext.symbolTable name with
  | some _ => .error s!"Identifier '{name}' is already declared."
  | none => .ok { Symbol.fresh with symbolType := type }

/-- `Driver::allocate_variable`, with the data type and the access that the caller then stores. -/
def allocateVariable (d : Driver) (name : String) (dataType : DataType) (access : Access) :
    Except String (Symbol × Driver) := do
  let s ← d.allocateSymbol name .variable
  let s := { s with fpOffset := d.currentContext.frameSize, dataType, access }
  return (s, (d.setSymbol name s).setFrameSize (d.currentContext.frameSize + 1))

/-- `Driver::find_mutable_symbol`: inside of a function the global context is searched for
functions only. -/
def findSymbol (d : Driver) (name : String) : Option Symbol :=
  match d.currentContext.symbolTable name with
  | some s => some s
  | none =>
    if d.isGlobalContext then none
    else (d.globalContext.symbolTable name).filter fun s => s.symbolType == .function

/-- `Driver::find_function`. -/
def findFunction (d : Driver) (name : String) : Option Symbol := d.globalContext.symbolTable name

/-- Changes the entry that `find_mutable_symbol` returns. -/
def modifySymbol (d : Driver) (name : String) (change : Symbol → Symbol) : Driver :=
  match d.currentContext.symbolTable name with
  | some s => d.setSymbol name (change s)
  | none =>
    match d.findSymbol name with
    | none => d
    | some s =>
      { d with
        globalContext :=
          { d.globalContext with
            symbolTable := Function.update d.globalContext.symbolTable name (some (change s)) } }

/-- The entry of `return_value`, which lies below the frame of a function. -/
def returnValue (returnType : DataType) : Symbol :=
  { Symbol.fresh with access := .localVar, fpOffset := -1, dataType := returnType }

/-- `Driver::enter_function`. -/
def enterFunction (d : Driver) (returnType : DataType) : Driver :=
  { d with inFunction := true, functionContext := .empty }.setSymbol "return_value"
    (returnValue returnType)

def exitFunction (d : Driver) : Driver := { d with inFunction := false }

/-- `Driver::allocate_guid`. -/
def allocateGuid (d : Driver) : Int × Driver := (d.nextGuid, { d with nextGuid := d.nextGuid + 1 })

end Driver

end OpenmrnCue.Logic
