import Mathlib.Data.List.Basic
import Mathlib.Tactic.Common
import Mathlib.Algebra.Order.Ring.Int

/-! The operations of an automaton: `operations.hxx` with the instruction codes of
`automata_defs.h`. An operation has conditions and actions.  It is rendered as a header with the
number of bytes of both, then the bytes of the conditions, then the bytes of the actions. -/

namespace OpenmrnCue.Automata

/-- `insn_t`. -/
abbrev Insn := UInt8

namespace Insn

def ifReg : Insn := 0x00
def ifRegMask : Insn := 0x80
def reg1 : Insn := 0x40
def ifRegBitnumMask : Insn := 0b111111
def ifState : Insn := 0xA0
def ifStateMask : Insn := 0xE0
def getLock : Insn := 0xE0
def getLockMask : Insn := 0xE0
def relLock : Insn := 0xC0
def relLockMask : Insn := 0xE0
def ifMiscBase : Insn := 0x80
def ifMiscMask : Insn := 0xF0
def ifMiscaBase : Insn := 0x90
def ifMiscaMask : Insn := 0xF0
def ifAspect : Insn := ifMiscaBase ||| 9

def actReg : Insn := 0x80
def actRegMask : Insn := 0x80
def actTimer : Insn := 0x00
def actTimerMask : Insn := 0xE0
def actMiscBase : Insn := 0x20
def actMiscMask : Insn := 0xF0
def actUpAspect : Insn := actMiscBase ||| 0
def actImportVar : Insn := actMiscBase ||| 1
def actDefVar : Insn := actMiscBase ||| 2
def actSetVarValue : Insn := actMiscBase ||| 3
def actMiscaBase : Insn := 0x30
def actMiscaMask : Insn := 0xF0
def actSetSrcplace : Insn := actMiscaBase ||| 0
def actSetTrainid : Insn := actMiscaBase ||| 1
def actSetAspect : Insn := actMiscaBase ||| 3
def actSetEventid : Insn := actMiscaBase ||| 5
def actSetVarValueAspect : Insn := actMiscaBase ||| 6
def actGetVarValueAspect : Insn := actMiscaBase ||| 7
def actState : Insn := 0x40
def actStateMask : Insn := 0xC0

end Insn

/-- `MAX_IMPORT_VAR`. -/
def maxImportVar : Nat := 32

/-- `Automata::LocalVariable`, with the ids that `GetId` asserts. -/
structure LocalVariable where
  id : Nat
  isLt : id < maxImportVar
deriving DecidableEq, Repr

theorem one_lt_maxImportVar : 1 < maxImportVar := by decide

/-- `timer_bit_`. -/
def timerBit : LocalVariable := ⟨0, by decide⟩

/-- `GlobalVariableId`: where a variable is defined, and the number of a bit in a block. -/
structure GlobalVariableId where
  id : Nat
  arg : Nat
deriving DecidableEq, Repr

/-- The conditions of an `Automata::Op`. -/
inductive Condition (Var : Type) where
  | ifState (state : Nat)
  | ifReg0 (var : Var)
  | ifReg1 (var : Var)
  | ifTimerDone
  | ifTimerNotDone
  | ifAspect (value : UInt8)
deriving DecidableEq, Repr

/-- The actions of an `Automata::Op`. -/
inductive Action (Var Global : Type) where
  | actReg0 (var : Var)
  | actReg1 (var : Var)
  | actState (state : Nat)
  | actTimer (seconds : Nat)
  | actImportVariable (var : Global) (localVar : Var)
  | actSetId (id : UInt64)
  | actSetAspect (value : UInt8)
  | actUpAspect
  | actSetValue (var : Var) (offset : Nat) (value : UInt8)
  | actSetValueFromAspect (var : Var) (offset : Nat)
  | actGetValueToAspect (var : Var) (offset : Nat)
deriving DecidableEq, Repr

/-- `Automata::Op`. -/
structure Op (Var Global : Type) where
  ifs : List (Condition Var)
  acts : List (Action Var Global)
deriving DecidableEq, Repr

/-- What `IfReg` appends to `ifs_`. -/
def ifRegByte (var : LocalVariable) (value : Bool) : Insn :=
  Insn.ifReg ||| (if value then Insn.reg1 else 0) ||| UInt8.ofNat var.id

/-- What a condition appends to `ifs_`.  The timer is the local variable 0. -/
def Condition.bytes : Condition LocalVariable → List Insn
  | ifState state => [Insn.ifState ||| UInt8.ofNat state]
  | ifReg0 var => [ifRegByte var false]
  | ifReg1 var => [ifRegByte var true]
  | ifTimerDone => [ifRegByte timerBit false]
  | ifTimerNotDone => [ifRegByte timerBit true]
  | ifAspect value => [Insn.ifAspect, value]

/-- Byte `n` of an event id. -/
def eventIdByte (id : UInt64) (n : Nat) : Insn := ((id >>> UInt64.ofNat (n * 8)) &&& 0xff).toUInt8

/-- The bytes `n` to 0 of an event id. -/
def eventIdBytes (id : UInt64) : Nat → List Insn
  | 0 => [eventIdByte id 0]
  | n + 1 => eventIdByte id (n + 1) :: eventIdBytes id n

/-- The argument byte with the offset of a value and the number of a local variable. -/
def valueArgument (var : LocalVariable) (offset : Nat) : Insn :=
  UInt8.ofNat (offset <<< 5) ||| UInt8.ofNat (var.id &&& 31)

/-- What `ActReg` appends to `acts_`. -/
def actRegByte (var : LocalVariable) (value : Bool) : Insn :=
  Insn.actReg ||| (if value then Insn.reg1 else 0) ||| UInt8.ofNat var.id

/-- What an action appends to `acts_`. -/
def Action.bytes : Action LocalVariable GlobalVariableId → List Insn
  | actReg0 var => [actRegByte var false]
  | actReg1 var => [actRegByte var true]
  | actState state => [Insn.actState ||| UInt8.ofNat state]
  | actTimer seconds => [Insn.actTimer ||| UInt8.ofNat seconds]
  | actImportVariable var localVar =>
    [Insn.actImportVar, UInt8.ofNat ((var.arg >>> 8) <<< 5) ||| UInt8.ofNat (localVar.id &&& 31),
      UInt8.ofNat (var.arg &&& 0xff), UInt8.ofNat (var.id &&& 0xff),
      UInt8.ofNat ((var.id >>> 8) &&& 0xff)]
  | actSetId id => Insn.actSetEventid :: 0b00000111 :: eventIdBytes id 7
  | actSetAspect value => [Insn.actSetAspect, value]
  | actUpAspect => [Insn.actUpAspect]
  | actSetValue var offset value => [Insn.actSetVarValue, valueArgument var offset, value]
  | actSetValueFromAspect var offset => [Insn.actSetVarValueAspect, valueArgument var offset]
  | actGetValueToAspect var offset => [Insn.actGetVarValueAspect, valueArgument var offset]

/-- What the builder of a condition asserts: `GET_INVERSE_MASK(_IF_STATE_MASK)` is `0x1F`. -/
def Condition.Admitted : Condition LocalVariable → Prop
  | ifState state => state < 32
  | _ => True

/-- What the builder of an action asserts, with the seconds for which there is no other meaning. -/
def Action.Admitted : Action LocalVariable GlobalVariableId → Prop
  | actState state => state < 32
  | actTimer seconds => seconds ≤ 30
  | actImportVariable var _ => var.arg < 8 <<< 8
  | actSetValue _ offset _ => offset < 8
  | actSetValueFromAspect _ offset => offset < 8
  | actGetValueToAspect _ offset => offset < 8
  | _ => True

instance (c : Condition LocalVariable) : Decidable c.Admitted := by
  cases c <;> unfold Condition.Admitted <;> infer_instance

instance (a : Action LocalVariable GlobalVariableId) : Decidable a.Admitted := by
  cases a <;> unfold Action.Admitted <;> infer_instance

/-- `CreateOperation`. -/
def createOperation (ifs acts : List Insn) : List Insn :=
  ((UInt8.ofNat (acts.length &&& 0xf) <<< 4) ||| (UInt8.ofNat (ifs.length &&& 0xf))) ::
    (ifs ++ acts)

variable (op : Op LocalVariable GlobalVariableId)

def Op.ifBytes : List Insn := op.ifs.flatMap Condition.bytes

def Op.actBytes : List Insn := op.acts.flatMap Action.bytes

/-- What the destructor of an `Op` appends to the output. -/
def Op.bytes : List Insn := createOperation op.ifBytes op.actBytes

/-- What `Automata::Render` appends to the output for a body: its operations and the EOF byte. -/
def render (body : List (Op LocalVariable GlobalVariableId)) : List Insn :=
  body.flatMap Op.bytes ++ [0]

/-- What the builders and the destructor of an `Op` assert. -/
structure Op.Asserted : Prop where
  ifs : ∀ c ∈ op.ifs, c.Admitted
  acts : ∀ a ∈ op.acts, a.Admitted
  ifs_size : op.ifBytes.length < 16
  acts_size : op.actBytes.length < 16

instance : Decidable op.Asserted :=
  decidable_of_iff ((∀ c ∈ op.ifs, c.Admitted) ∧ (∀ a ∈ op.acts, a.Admitted) ∧
      op.ifBytes.length < 16 ∧ op.actBytes.length < 16)
    ⟨fun h => ⟨h.1, h.2.1, h.2.2.1, h.2.2.2⟩, fun h => ⟨h.ifs, h.acts, h.ifs_size, h.acts_size⟩⟩

/-- An operation that passes the assertions and does something: the header of one that does nothing
ends the automaton. -/
structure Op.Admitted : Prop extends op.Asserted where
  nonempty : op.ifs ≠ [] ∨ op.acts ≠ []

end OpenmrnCue.Automata
