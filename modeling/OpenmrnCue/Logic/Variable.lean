import OpenmrnCue.Logic.Bytecode

/-! The variables of the logic language that live outside the virtual machine: the request that
creates one, the variables the machine keeps, and the factory behind the others. -/

namespace OpenmrnCue.Logic

/-- `VariableCreationRequest::Type`. -/
inductive VariableType
  | bool | int
  deriving DecidableEq, Repr

/-- `VariableCreationRequest`: what kind of variable to create. -/
structure VariableCreationRequest where
  blockNum : UInt8
  type : VariableType
  numStates : Int32
  name : Bytes
  defaultEvent : UInt64
  defaultOnEvent : UInt64
  deriving DecidableEq, Repr

/-- The request in its default state, after `VariableCreationRequest::clear`. -/
def VariableCreationRequest.cleared : VariableCreationRequest where
  blockNum := 0
  type := .bool
  numStates := 2
  name := []
  defaultEvent := 0
  defaultOnEvent := 0

/-- An entry of `external_variables_`: a `StaticVariable` with its value, or a variable that the
factory made, known by its handle. -/
inductive Variable (H : Type)
  | static (value : Int32)
  | external (handle : H)

/-- The component behind the `VariableFactory` and `Variable` interfaces, with its own state `W`.
`createVariable` may change the request it is given.  The flag that `read` and `write` return tells
whether the variable called `report_access_error`. -/
structure VariableFactory (W H : Type) where
  createVariable : W → VariableCreationRequest → Option H × VariableCreationRequest × W
  read : W → H → Nat → Int32 × Bool × W
  write : W → H → Nat → Int32 → Bool × W

/-- A factory that makes every variable, and all of them are zero. -/
def VariableFactory.zero : VariableFactory Unit Unit where
  createVariable _ request := (some (), request, ())
  read _ _ _ := (0, false, ())
  write _ _ _ _ := (false, ())

end OpenmrnCue.Logic
