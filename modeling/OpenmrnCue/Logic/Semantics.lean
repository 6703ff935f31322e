import OpenmrnCue.Logic.AST
import OpenmrnCue.Logic.VM

/-! Direct evaluation of the part of the language that has no functions and no exported variables.
Variables are found by name, so that nothing here depends on the offsets that the compiler gives
them; `Command.scope` says which offsets lexical scoping gives.

A truth value is an integer, false if it is 0: the initial content of a static variable is arbitrary,
and a `bool` that holds 7 is true. -/

namespace OpenmrnCue.Logic

/-- What a name in scope stands for: a value, or the static variable of a GUID. -/
inductive Slot
  | value (v : Int32)
  | static (guid : UInt32)
  deriving DecidableEq, Repr

/-- The state of an evaluation: the variables in scope, the oldest first, the static variables, and
the texts printed so far. -/
structure EvalState where
  env : List (String × Slot)
  statics : UInt32 → Option Int32
  output : List Bytes

/-- Why an expression has no value.  A `stuck` expression is outside of the evaluated part of the
language. -/
inductive Fault
  | divByZero | stuck
  deriving DecidableEq, Repr

/-- How a command ends. -/
inductive Ending
  | normal | terminated | divByZero | stuck
  deriving DecidableEq, Repr

def Fault.ending : Fault → Ending
  | divByZero => .divByZero
  | stuck => .stuck

/-- The key of a GUID in the table of external variables. -/
def guidKey (guid : Int) : UInt32 := (Int32.ofInt guid).toUInt32

def VariableReference.name : VariableReference → String
  | localVar name _ => name
  | globalVar name _ => name

namespace EvalState

/-- The value of the variable `name`. -/
def read (s : EvalState) (name : String) : Except Fault Int32 :=
  match s.env.lookup name with
  | some (.value v) => .ok v
  | some (.static guid) =>
    match s.statics guid with
    | some v => .ok v
    | none => .error .stuck
  | none => .error .stuck

def setStatic (s : EvalState) (guid : UInt32) (v : Int32) : EvalState :=
  { s with statics := Function.update s.statics guid (some v) }

/-- The slot of `name` holds `v` from now on. -/
def setLocal (s : EvalState) (name : String) (v : Int32) : EvalState :=
  { s with env := s.env.map fun e => if e.1 = name then (name, .value v) else e }

/-- An assignment to the variable `name`. -/
def assign (s : EvalState) (name : String) (v : Int32) : Ending × EvalState :=
  match s.env.lookup name with
  | some (.value _) => (.normal, s.setLocal name v)
  | some (.static guid) => (.normal, s.setStatic guid v)
  | none => (.stuck, s)

def declare (s : EvalState) (name : String) (slot : Slot) : EvalState :=
  { s with env := s.env ++ [(name, slot)] }

def print (s : EvalState) (text : Bytes) : EvalState := { s with output := s.output ++ [text] }

/-- The end of a block: only the first `n` variables are still in scope. -/
def leave (s : EvalState) (n : Nat) : EvalState := { s with env := s.env.take n }

end EvalState

/-- The operators on 32-bit integers, which wrap around: `-2147483648 / -1` is `-2147483648`. -/
def NumericOp.eval (op : NumericOp) (l r : Int32) : Except Fault Int32 :=
  match op with
  | plus => .ok (l + r)
  | minus => .ok (l - r)
  | mul => .ok (l * r)
  | div => if r = 0 then .error .divByZero else .ok (l / r)
  | mod => if r = 0 then .error .divByZero else .ok (l % r)

def CompOp.eval (op : CompOp) (l r : Int32) : Int32 :=
  match op with
  | leq => ofBool (l ≤ r)
  | geq => ofBool (l ≥ r)
  | lt => ofBool (l < r)
  | gt => ofBool (l > r)
  | eq => ofBool (l == r)
  | neq => ofBool (l != r)

def BoolOp.eval (op : BoolOp) (l r : Int32) : Int32 :=
  match op with
  | eq => ofBool ((l != 0) == (r != 0))
  | neq => ofBool ((l != 0) != (r != 0))

def IntExpression.eval (s : EvalState) : IntExpression → Except Fault Int32
  | .intVariable v => s.read v.name
  | .intBinaryExpression op left right => do op.eval (← left.eval s) (← right.eval s)
  | .intConstant value => .ok value
  | .intFunctionCall _ => .error .stuck

def BooleanExpression.eval (s : EvalState) : BooleanExpression → Except Fault Int32
  | .boolVariable v => s.read v.name
  | .intComp op left right => do return op.eval (← left.eval s) (← right.eval s)
  | .booleanConstant value => .ok (ofBool value)
  | .boolNot left => do return ofBool ((← left.eval s) == 0)
  | .boolAnd left right => do
    let l ← left.eval s
    if l = 0 then return l else right.eval s
  | .boolCmp op left right => do return op.eval (← left.eval s) (← right.eval s)
  | .boolOr left right => do
    let l ← left.eval s
    if l ≠ 0 then return l else right.eval s
  | .boolFunctionCall _ => .error .stuck

def Initializer.eval (s : EvalState) : Initializer → Except Fault Int32
  | .int e => e.eval s
  | .bool e => e.eval s

/-- On with the value of an expression, or the end of the evaluation if it has none. -/
def EvalState.withValue (s : EvalState) (value : Except Fault Int32)
    (k : Int32 → Ending × EvalState) : Ending × EvalState :=
  match value with
  | .ok v => k v
  | .error fault => (fault.ending, s)

/-- On with the state in which a command ended normally. -/
def andThen (result : Ending × EvalState) (k : EvalState → Ending × EvalState) :
    Ending × EvalState :=
  match result with
  | (.normal, s) => k s
  | other => other

mutual

/-- What a command does.  A sequence with a stack size to check is a braced block, whose variables
go out of scope at its normal end; the other sequences are lists of declarations or of texts to
print. -/
def Command.eval (s : EvalState) : Command → Ending × EvalState
  | .empty => (.normal, s)
  | .commandSequence commands trimStackFrom _ =>
    andThen (Command.evalAll s commands) fun s' =>
      (.normal, if 0 ≤ trimStackFrom then s'.leave s.env.length else s')
  | .staticVarCreate name _ guid _ init =>
    match s.statics (guidKey guid) with
    | some _ => (.normal, s.declare name (.static (guidKey guid)))
    | none =>
      -- The variable is there, and 0, when its initial value is computed.
      let created := (s.setStatic (guidKey guid) 0).declare name (.static (guidKey guid))
      created.withValue (init.eval created) fun v => (.normal, created.setStatic (guidKey guid) v)
  | .localVarCreate name _ _ init =>
    s.withValue (init.eval s) fun v => (.normal, s.declare name (.value v))
  | .numericAssignment var value => s.withValue (value.eval s) fun v => s.assign var.name v
  | .booleanAssignment var value =>
    s.withValue (value.eval s) fun v => s.assign var.name (ofBool (v != 0))
  | .ifThen condition thenCase =>
    s.withValue (condition.eval s) fun v => if v ≠ 0 then thenCase.eval s else (.normal, s)
  | .ifThenElse condition thenCase elseCase =>
    s.withValue (condition.eval s) fun v => if v ≠ 0 then thenCase.eval s else elseCase.eval s
  | .printString text => (.normal, s.print text)
  | .printInt value => s.withValue (value.eval s) fun v => (.normal, s.print (decimal v))
  | .terminate => (.terminated, s)
  | .indirectVarCreate .. | .function .. | .functionCall _ => (.stuck, s)

def Command.evalAll (s : EvalState) : List Command → Ending × EvalState
  | [] => (.normal, s)
  | c :: cs => andThen (c.eval s) fun s' => Command.evalAll s' cs

end

/-- The state at the start of a program. -/
def EvalState.start (statics : UInt32 → Option Int32) : EvalState where
  env := []
  statics := statics
  output := []

/-! ### Lexical scoping -/

/-- The variables in scope and how they are accessed.  The index of a variable is its offset. -/
abbrev Scope := List (String × Access)

/-- The reference carries the offset of the variable that it names. -/
def VariableReference.inScope (g : Scope) : VariableReference → Bool
  | localVar name fpOffset => 0 ≤ fpOffset && g[fpOffset.toNat]? == some (name, .localVar)
  | globalVar name fpOffset => 0 ≤ fpOffset && g[fpOffset.toNat]? == some (name, .indirectVar)

/-- Every reference carries the offset of its variable, and there is no call. -/
def IntExpression.inScope (g : Scope) : IntExpression → Bool
  | .intVariable v => v.inScope g
  | .intBinaryExpression _ left right => left.inScope g && right.inScope g
  | .intConstant _ => true
  | .intFunctionCall _ => false

def BooleanExpression.inScope (g : Scope) : BooleanExpression → Bool
  | .boolVariable v => v.inScope g
  | .intComp _ left right => left.inScope g && right.inScope g
  | .booleanConstant _ => true
  | .boolNot left => left.inScope g
  | .boolAnd left right => left.inScope g && right.inScope g
  | .boolCmp _ left right => left.inScope g && right.inScope g
  | .boolOr left right => left.inScope g && right.inScope g
  | .boolFunctionCall _ => false

def Initializer.inScope (g : Scope) : Initializer → Bool
  | .int e => e.inScope g
  | .bool e => e.inScope g

/-- A declaration of `name` at `fpOffset`: a new name, at the next free offset. -/
def Scope.declare (g : Scope) (name : String) (access : Access) (fpOffset : Int) : Option Scope :=
  if fpOffset = g.length ∧ ∀ e ∈ g, e.1 ≠ name then some (g ++ [(name, access)]) else none

mutual

/-- The scope after a command that is well scoped in `g`. -/
def Command.scope (g : Scope) : Command → Option Scope
  | .empty | .printString _ | .terminate => some g
  | .commandSequence commands trimStackFrom trimStackTo => do
    let g' ← Command.scopeAll g commands
    if trimStackFrom = -1 ∧ trimStackTo = -1 then return g'
    -- A braced block trims the stack if it has declared variables.
    else if trimStackFrom = g'.length ∧
        trimStackTo = (if g'.length = g.length then -1 else (g.length : Int)) then return g
    else none
  | .staticVarCreate name _ _ fpOffset init =>
    if init.inScope g then g.declare name .indirectVar fpOffset else none
  | .localVarCreate name _ fpOffset init =>
    if init.inScope g then g.declare name .localVar fpOffset else none
  | .numericAssignment var value => if var.inScope g && value.inScope g then some g else none
  | .booleanAssignment var value => if var.inScope g && value.inScope g then some g else none
  -- The branches of a conditional are blocks, or conditionals again.
  | .ifThen condition thenCase =>
    if condition.inScope g && thenCase.scope g == some g then some g else none
  | .ifThenElse condition thenCase elseCase =>
    if condition.inScope g && thenCase.scope g == some g && elseCase.scope g == some g then some g
    else none
  | .printInt value => if value.inScope g then some g else none
  | .indirectVarCreate .. | .function .. | .functionCall _ => none

def Command.scopeAll (g : Scope) : List Command → Option Scope
  | [] => some g
  | c :: cs => do Command.scopeAll (← c.scope g) cs

end

end OpenmrnCue.Logic
