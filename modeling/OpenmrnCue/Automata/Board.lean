import OpenmrnCue.Automata.Operations

/-! `Board::Render` of `system.cpp`, with the variables of `variables.hxx`: the table of the
automata, the definitions of the global variables, then the body of each automaton.  The bodies are
rendered twice, the first time without an output.  A failed assertion is `none`. -/

namespace OpenmrnCue.Automata

/-! ## Global variables -/

/-- The global variables that have a definition in the preamble. -/
inductive Variable where
  | eventBased (eventOn eventOff : UInt64) (client offset bit : Nat)
  | eventBlock (eventBase : UInt64) (size : Nat)
  | signal (eventBase : UInt64) (signalId : UInt8)
  | byteImport (eventBase : UInt64) (defaultValue : UInt8)
deriving DecidableEq, Repr

/-- A `GlobalVariable` of an automaton: a variable of the board, or a `BlockVariable`, which is a
bit of an event block of the board. -/
structure GlobalVariable where
  definition : Nat
  arg : Nat
deriving DecidableEq, Repr

/-- `EventVariableBase::CreateEventId`. -/
def createEventId (dst : Bool) (eventid : UInt64) : List Insn :=
  createOperation []
    (Insn.actSetEventid :: (if dst then 0b01010111 else 0b00000111) :: eventIdBytes eventid 7)

namespace Variable

/-- What `Render` sets before the definition. -/
def eventIds : Variable → List Insn
  | eventBased eventOn eventOff _ _ _ => createEventId true eventOn ++ createEventId false eventOff
  | eventBlock eventBase _ => createEventId false eventBase
  | signal eventBase _ => createEventId false eventBase
  | byteImport eventBase _ => createEventId false eventBase

/-- `arg1_`. -/
def arg1 : Variable → Insn
  | eventBased _ _ client _ _ => UInt8.ofNat (client &&& 0b11111)
  | eventBlock _ size => (1 : Insn) <<< 5 ||| UInt8.ofNat ((size >>> 8) &&& 7)
  | signal _ _ => (2 : Insn) <<< 5
  | byteImport _ _ => (3 : Insn) <<< 5

/-- `arg2_`. -/
def arg2 : Variable → Insn
  | eventBased _ _ _ offset bit => UInt8.ofNat (offset <<< 3) ||| UInt8.ofNat (bit &&& 7)
  | eventBlock _ size => UInt8.ofNat (size &&& 0xff)
  | signal _ _ => 2
  | byteImport _ _ => 1

/-- The operation that `RenderHelper` creates. -/
def renderHelper (arg1 arg2 : Insn) : List Insn := createOperation [] [Insn.actDefVar, arg1, arg2]

/-- The id that `RenderHelper` sets, where the output had this size before `Render`. -/
def definitionOffset (v : Variable) (size : Nat) : Nat := size + v.eventIds.length + 2

/-- The local variable that the preamble uses for the values of bytes. -/
def fixedVar : LocalVariable := ⟨30, by decide⟩

/-- The operations that import a byte variable straight away and set its first byte. -/
def fixFirstByte (id : Nat) (value : UInt8) : List (Op LocalVariable GlobalVariableId) :=
  [⟨[], [.actImportVariable ⟨id, 0⟩ fixedVar]⟩, ⟨[], [.actSetValue fixedVar 0 value]⟩]

/-- The operations after the definition. -/
def initialOps (v : Variable) (size : Nat) : List (Op LocalVariable GlobalVariableId) :=
  match v with
  | signal _ signalId => fixFirstByte (v.definitionOffset size) signalId
  | byteImport _ defaultValue => fixFirstByte (v.definitionOffset size) defaultValue
  | _ => []

/-- `Render`, to an output of this size. -/
def render (v : Variable) (size : Nat) : List Insn :=
  v.eventIds ++ renderHelper v.arg1 v.arg2 ++ (v.initialOps size).flatMap Op.bytes

/-- What `Render` asserts. -/
def Admitted : Variable → Prop
  | eventBlock _ size => size < 8 <<< 8
  | _ => True

instance (v : Variable) : Decidable v.Admitted := by
  cases v <;> unfold Admitted <;> infer_instance

end Variable

/-- The definitions of the variables, to an output of this size. -/
def renderVariables : List Variable → Nat → List Insn
  | [], _ => []
  | v :: rest, size => v.render size ++ renderVariables rest (size + (v.render size).length)

/-- The ids of the variables, for an output of this size. -/
def variableIds : List Variable → Nat → List Nat
  | [], _ => []
  | v :: rest, size =>
    v.definitionOffset size :: variableIds rest (size + (v.render size).length)

/-! ## Local variables -/

/-- `used_variables_`, without the timer under its fake key, `reserved_variables_` and
`next_variable_id_`. -/
structure LocalVariables where
  used : List (GlobalVariable × LocalVariable)
  reserved : List Nat
  nextId : Nat
deriving DecidableEq, Repr

/-- The loop of `GetNextVariableId` over the reserved ids.  There are `MAX_IMPORT_VAR` ids. -/
def skipReserved (reserved : List Nat) : Nat → Nat → Nat
  | 0, id => id
  | fuel + 1, id => if id ∈ reserved then skipReserved reserved fuel (id + 1) else id

namespace LocalVariables

variable (s : LocalVariables)

/-- `ClearUsedVariables`. -/
def clearUsedVariables : LocalVariables := { s with used := [], nextId := 1 }

/-- `GetNextVariableId`. -/
def getNextVariableId : Option (LocalVariable × LocalVariables) :=
  if h : skipReserved s.reserved maxImportVar s.nextId < maxImportVar then
    some (⟨_, h⟩, { s with nextId := skipReserved s.reserved maxImportVar s.nextId + 1 })
  else none

/-- `ReserveVariable`. -/
def reserveVariable : Option (LocalVariable × LocalVariables) := do
  let (id, s) ← s.getNextVariableId
  some (id, { s with reserved := id.id :: s.reserved })

/-- The id of a variable in `used_variables_`. -/
def find (var : GlobalVariable) : Option LocalVariable := s.used.lookup var

/-- The new id of a variable that is not in `used_variables_`. -/
def addUsed (var : GlobalVariable) : Option (LocalVariable × LocalVariables) := do
  let (id, s) ← s.getNextVariableId
  some (id, { s with used := (var, id) :: s.used })

end LocalVariables

/-! ## Bodies -/

/-- The `local_id` of `RenderImportVariable`: the id of a local variable of the body, or a number.
-/
inductive LocalId where
  | of (x : Nat)
  | number (n : Nat)
deriving DecidableEq, Repr

/-- What the body of an automaton does.  It keeps the local variables that it is given under names.
-/
inductive Statement where
  | importVariable (x : Nat) (var : GlobalVariable)
  | reserveVariable (x : Nat)
  | renderImportVariable (var : GlobalVariable) (localId : LocalId)
  | clearUsedVariables
  | op (op : Op Nat GlobalVariable)
deriving DecidableEq, Repr

/-- A body while it is rendered: the local variables, those that it keeps, and the operations that
are in the output. -/
structure BodyState where
  vars : LocalVariables
  locals : Nat → Option LocalVariable
  ops : List (Op LocalVariable GlobalVariableId)

/-- `GetId` of the global variables, where there is an output. -/
abbrev Output := Option (GlobalVariable → Option GlobalVariableId)

section Resolve

variable (locals : Nat → Option LocalVariable) (getId : GlobalVariable → Option GlobalVariableId)

def Condition.resolve : Condition Nat → Option (Condition LocalVariable)
  | ifState state => some (.ifState state)
  | ifReg0 x => do some (.ifReg0 (← locals x))
  | ifReg1 x => do some (.ifReg1 (← locals x))
  | ifTimerDone => some .ifTimerDone
  | ifTimerNotDone => some .ifTimerNotDone
  | ifAspect value => some (.ifAspect value)

def Action.resolve : Action Nat GlobalVariable → Option (Action LocalVariable GlobalVariableId)
  | actReg0 x => do some (.actReg0 (← locals x))
  | actReg1 x => do some (.actReg1 (← locals x))
  | actState state => some (.actState state)
  | actTimer seconds => some (.actTimer seconds)
  | actImportVariable var x => do some (.actImportVariable (← getId var) (← locals x))
  | actSetId id => some (.actSetId id)
  | actSetAspect value => some (.actSetAspect value)
  | actUpAspect => some .actUpAspect
  | actSetValue x offset value => do some (.actSetValue (← locals x) offset value)
  | actSetValueFromAspect x offset => do some (.actSetValueFromAspect (← locals x) offset)
  | actGetValueToAspect x offset => do some (.actGetValueToAspect (← locals x) offset)

/-- The operation that the destructor of an `Op` appends. -/
def Op.resolve (op : Op Nat GlobalVariable) : Option (Op LocalVariable GlobalVariableId) := do
  let ifs ← op.ifs.mapM (Condition.resolve locals)
  let acts ← op.acts.mapM (Action.resolve locals getId)
  if (Op.mk ifs acts).Asserted then some ⟨ifs, acts⟩ else none

end Resolve

def LocalId.resolve (locals : Nat → Option LocalVariable) : LocalId → Option LocalVariable
  | of x => locals x
  | number n => if h : n < maxImportVar then some ⟨n, h⟩ else none

namespace BodyState

variable (output : Output) (s : BodyState)

def init : BodyState := ⟨⟨[], [], 1⟩, fun _ => none, []⟩

/-- `x = id`. -/
def assign (x : Nat) (id : LocalVariable) : BodyState :=
  { s with locals := Function.update s.locals x (some id) }

/-- `RenderImportVariable`. -/
def renderImport (var : GlobalVariable) (id : LocalVariable) : Option BodyState :=
  match output with
  | none => some s
  | some getId => do
    let gid ← getId var
    if gid.arg < 8 <<< 8 then
      some { s with ops := s.ops ++ [⟨[], [.actImportVariable gid id]⟩] }
    else none

/-- One statement of a body. -/
def exec : Statement → Option BodyState
  | .importVariable x var =>
    match s.vars.find var with
    | some id => some (s.assign x id)
    | none => do
      let (id, vars) ← s.vars.addUsed var
      let s ← renderImport output { s with vars } var id
      some (s.assign x id)
  | .reserveVariable x => do
    let (id, vars) ← s.vars.reserveVariable
    some ({ s with vars }.assign x id)
  | .renderImportVariable var localId => do s.renderImport output var (← localId.resolve s.locals)
  | .clearUsedVariables => some { s with vars := s.vars.clearUsedVariables }
  | .op op =>
    match output with
    | none => some s
    | some getId => do some { s with ops := s.ops ++ [← op.resolve s.locals getId] }

/-- The statements in order. -/
def execAll (statements : List Statement) : Option BodyState := statements.foldlM (exec output) s

end BodyState

/-! ## Boards -/

/-- An automaton: what its constructor does, and its `Body`. -/
structure Automaton where
  setup : List Statement
  body : List Statement
deriving DecidableEq, Repr

namespace Automaton

variable (a : Automaton)

/-- `Render`: the local variables that are used are forgotten, those that are reserved are not. -/
def render (output : Output) (s : BodyState) : Option BodyState :=
  BodyState.execAll output
    { s with vars := s.vars.clearUsedVariables, ops := [] } a.body

/-- The automaton after its constructor and after the rendering without output. -/
def prepared : Option BodyState := do a.render none (← BodyState.execAll none .init a.setup)

/-- The automaton at the start of the rendering to the output. -/
def start : Option BodyState := do
  let s ← a.prepared
  some { s with vars := s.vars.clearUsedVariables, ops := [] }

/-- The automaton after the rendering to the output. -/
def rendered (getId : GlobalVariable → Option GlobalVariableId) : Option BodyState := do
  (← a.start).execAll (some getId) a.body

end Automaton

/-- `Board`. -/
structure Board where
  automatas : List Automaton
  globalVariables : List Variable
deriving DecidableEq, Repr

/-- The loop of `RenderAutomatas`: the output, and the offsets of the automata. -/
def renderAutomatas : List Insn → Nat → List (List Insn) → List Insn × List Nat
  | output, _, [] => (output, [])
  | output, ptrOffset, body :: rest =>
    let offset := output.length
    let output := ((output ++ body).set ptrOffset (UInt8.ofNat (offset &&& 0xff))).set
      (ptrOffset + 1) (UInt8.ofNat ((offset >>> 8) &&& 0xff))
    let (output, offsets) := renderAutomatas output (ptrOffset + 2) rest
    (output, offset :: offsets)

/-- What `Board::Render` leaves: the output, the offset of each automaton, and the automata. -/
structure Rendering where
  output : List Insn
  offsets : List Nat
  bodies : List BodyState

namespace Board

variable (b : Board)

/-- The size of the output before the first definition. -/
def tableSize : Nat := 2 * b.automatas.length + 2

/-- The output after `RenderPreamble`. -/
def preamble : List Insn :=
  List.replicate b.tableSize 0 ++ renderVariables b.globalVariables b.tableSize ++ [0]

/-- `GetId` after `RenderPreamble`. -/
def getId (var : GlobalVariable) : Option GlobalVariableId := do
  some ⟨← (variableIds b.globalVariables b.tableSize)[var.definition]?, var.arg⟩

/-- `Render`. -/
def render : Option Rendering := do
  if ∀ v ∈ b.globalVariables, v.Admitted then
    let bodies ← b.automatas.mapM fun a => a.rendered b.getId
    let (output, offsets) :=
      renderAutomatas b.preamble 0 (bodies.map fun s => Automata.render s.ops)
    some ⟨output, offsets, bodies⟩
  else none

end Board

end OpenmrnCue.Automata
