import Mathlib.Data.Fintype.Defs
import Mathlib.Logic.Function.Basic
import OpenmrnCue.Library.Except
import OpenmrnCue.Automata.Operations

/-! The state that an automaton works on: its own state and timer, the accumulators of the runner,
the bits that are declared and those that are imported.  What a bit object does when it is read and
written is a parameter; `interpret` carries out operations as they were given to the builder,
without their bytes. -/

namespace OpenmrnCue.Automata

/-- The classes derived from `ReadWriteBit` that a definition can create, with their arguments. -/
inductive ReadWriteBit where
  | eventBit (eventOn eventOff : UInt64) (mask : UInt8) (client offset : Nat)
  | eventBlockBit (eventBase : UInt64) (size : Nat)
  | eventByteBlock (eventBase : UInt64) (size : Nat)
  | eventByteBlockConsumer (eventBase : UInt64) (size : Nat)
deriving DecidableEq, Repr

/-- The objects are read and written as bits. -/
def ReadWriteBit.isBit : ReadWriteBit → Bool
  | eventBit .. => true
  | eventBlockBit .. => true
  | eventByteBlock .. => false
  | eventByteBlockConsumer .. => false

/-- What the bit objects do with the state `W` of all of them.  An object is known by the offset of
its definition. -/
structure BitObjects (W : Type) where
  create : Nat → ReadWriteBit → W → W
  read : Nat → ReadWriteBit → Nat → W → Bool
  write : Nat → ReadWriteBit → Nat → Bool → W → W
  getState : Nat → ReadWriteBit → Nat → W → UInt8
  setState : Nat → ReadWriteBit → Nat → UInt8 → W → W

/-- Where a run ends before its end: `diewith`, a failed `HASSERT`, an access outside of the code or
of an array, an instruction for trains, speeds and signals. -/
inductive Stop where
  | dieAutHalt
  | dieAutImportError
  | dieAutTwoByteFail
  | dieAutWriteTimerBit
  | dieUnsupported
  | assertFailed
  | outOfBounds
  | notModelled (insn : Insn)
deriving DecidableEq, Repr

/-- A pointer to a `ReadWriteBit`: the timer bit of the automaton, or the object of the definition
at an offset. -/
inductive BitRef where
  | timer
  | declared (offset : Nat)
deriving DecidableEq, Repr

/-- What an automaton does to the bits, in order. -/
inductive Effect where
  | imported (localId offset arg : Nat)
  | write (offset arg : Nat) (value : Bool)
  | setState (offset arg : Nat) (value : UInt8)
deriving DecidableEq, Repr

/-- There are accumulators for two event ids. -/
instance neZero_two : NeZero 2 := ⟨Nat.succ_ne_zero 1⟩

/-- The state and timer of the current automaton, and the accumulators and bits of the runner. -/
structure Machine (W : Type) where
  id : Nat
  state : UInt8
  timer : UInt8
  srcPlace : UInt8
  trainId : UInt8
  aspect : UInt8
  eventIds : Fin 2 → UInt64
  declared : Nat → Option ReadWriteBit
  imported : Nat → Option (BitRef × Nat)
  world : W
  effects : List Effect

/-- `imported_bits_` and `imported_bit_args_` after `ResetForAutomata`. -/
def resetImports : Nat → Option (BitRef × Nat) :=
  Function.update (fun _ => none) 0 (some (.timer, 0))

/-- The accumulators after the constructor of the runner, before any definition. -/
def Machine.init {W : Type} (world : W) : Machine W where
  id := 0
  state := 0
  timer := 0
  srcPlace := 254
  trainId := 254
  aspect := 254
  eventIds _ := 0
  declared _ := none
  imported _ := none
  world := world
  effects := []

/-- Bits without a state, which read as 0. -/
def zeroBits : BitObjects Unit where
  create _ _ _ := ()
  read _ _ _ _ := false
  write _ _ _ _ _ := ()
  getState _ _ _ _ := 0
  setState _ _ _ _ _ := ()

section Access

variable {W : Type} (bits : BitObjects W) (m : Machine W)

/-- `GetBit`, with the argument of the bit. -/
def Machine.getBit (local_ : Nat) : Except Stop (BitRef × Nat) :=
  if maxImportVar ≤ local_ then .error .outOfBounds
  else
    match m.imported local_ with
    | none => .error .dieAutImportError
    | some bit => .ok bit

/-- The object behind a pointer to the object of a definition. -/
def Machine.object (offset : Nat) : Except Stop ReadWriteBit :=
  match m.declared offset with
  | none => .error .outOfBounds
  | some object => .ok object

/-- `GetBit(local)->Read`. -/
def Machine.read (local_ : Nat) : Except Stop Bool := do
  match ← m.getBit local_ with
  | (.timer, _) => .ok (m.timer != 0)
  | (.declared offset, arg) =>
    let object ← m.object offset
    if object.isBit then .ok (bits.read offset object arg m.world) else .error .assertFailed

/-- `GetBit(local)->Write`. -/
def Machine.write (local_ : Nat) (value : Bool) : Except Stop (Machine W) := do
  match ← m.getBit local_ with
  | (.timer, _) => .error .dieAutWriteTimerBit
  | (.declared offset, arg) =>
    let object ← m.object offset
    if object.isBit then
      .ok { m with
        world := bits.write offset object arg value m.world
        effects := m.effects ++ [.write offset arg value] }
    else .error .assertFailed

/-- `GetBit(local)->GetState`. -/
def Machine.getState (local_ arg : Nat) : Except Stop UInt8 := do
  match ← m.getBit local_ with
  | (.timer, _) => .error .assertFailed
  | (.declared offset, _) =>
    let object ← m.object offset
    if object.isBit then .error .assertFailed else .ok (bits.getState offset object arg m.world)

/-- `GetBit(local)->SetState`. -/
def Machine.setState (local_ arg : Nat) (value : UInt8) : Except Stop (Machine W) := do
  match ← m.getBit local_ with
  | (.timer, _) => .error .assertFailed
  | (.declared offset, _) =>
    let object ← m.object offset
    if object.isBit then .error .assertFailed
    else
      .ok { m with
        world := bits.setState offset object arg value m.world
        effects := m.effects ++ [.setState offset arg value] }

/-- The import of the object of the definition at an offset. -/
def Machine.importBit (local_ offset arg : Nat) : Except Stop (Machine W) :=
  match m.declared offset with
  | none => .error .dieAutHalt
  | some _ =>
    .ok { m with
      imported := Function.update m.imported local_ (some (.declared offset, arg))
      effects := m.effects ++ [.imported local_ offset arg] }

end Access

/-- The aspects of `automata_defs.h` and `_ACT_UP_ASPECT`. -/
def upAspect : UInt8 → UInt8
  | 0 => 2   -- A_DARK
  | 1 => 2   -- A_STOP
  | 4 => 2   -- A_SHUNT
  | 2 => 5   -- A_40
  | 7 => 5   -- A_S40
  | 5 => 6   -- A_60
  | 6 => 3   -- A_90
  | 3 => 3   -- A_GO
  | _ => 0

section Interpret

variable {W : Type} (bits : BitObjects W)

/-- What a condition says. -/
def Condition.holds (m : Machine W) : Condition LocalVariable → Except Stop Bool
  | ifState state => .ok (m.state == UInt8.ofNat state)
  | ifReg0 var => do .ok (!(← m.read bits var.id))
  | ifReg1 var => m.read bits var.id
  | ifTimerDone => do .ok (!(← m.read bits timerBit.id))
  | ifTimerNotDone => m.read bits timerBit.id
  | ifAspect value => .ok (m.aspect == value)

/-- What an action does, where `resolve` says which definition an import finds. -/
def Action.perform (resolve : Nat → Nat) (m : Machine W) :
    Action LocalVariable GlobalVariableId → Except Stop (Machine W)
  | actReg0 var => m.write bits var.id false
  | actReg1 var => m.write bits var.id true
  | actState state => .ok { m with state := UInt8.ofNat state }
  | actTimer seconds => .ok { m with timer := UInt8.ofNat seconds }
  | actImportVariable var localVar => m.importBit localVar.id (resolve var.id) var.arg
  | actSetId id => .ok { m with eventIds := Function.update m.eventIds 0 id }
  | actSetAspect value => .ok { m with aspect := value }
  | actUpAspect => .ok { m with aspect := upAspect m.aspect }
  | actSetValue var offset value => m.setState bits var.id offset value
  | actSetValueFromAspect var offset => m.setState bits var.id offset m.aspect
  | actGetValueToAspect var offset => do
    .ok { m with aspect := ← m.getState bits var.id offset }

/-- The conditions in order, up to the first that does not hold. -/
def holdAll (m : Machine W) : List (Condition LocalVariable) → Except Stop Bool
  | [] => .ok true
  | c :: rest => do if ← c.holds bits m then holdAll m rest else .ok false

/-- The actions in order. -/
def performAll (resolve : Nat → Nat) :
    Machine W → List (Action LocalVariable GlobalVariableId) → Except Stop (Machine W)
  | m, [] => .ok m
  | m, a :: rest => do performAll resolve (← a.perform bits resolve m) rest

/-- An operation: its actions if all its conditions hold. -/
def Op.interpret (resolve : Nat → Nat) (m : Machine W) (op : Op LocalVariable GlobalVariableId) :
    Except Stop (Machine W) := do
  if ← holdAll bits m op.ifs then performAll bits resolve m op.acts else .ok m

/-- A body: its operations in order. -/
def interpret (resolve : Nat → Nat) (m : Machine W)
    (body : List (Op LocalVariable GlobalVariableId)) : Except Stop (Machine W) :=
  body.foldlM (Op.interpret bits resolve) m

end Interpret

end OpenmrnCue.Automata
