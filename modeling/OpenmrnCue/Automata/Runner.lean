import OpenmrnCue.Library.Run
import OpenmrnCue.Automata.Machine

/-! `AutomataRunner` of `automata_runner.cpp`: it loads the bytes of the operations one after the
other and carries out what they code, up to a header that is 0. -/

namespace OpenmrnCue.Automata

/-- The runner: its instruction pointer and what it works on. -/
structure Runner (W : Type) where
  ip : Nat
  machine : Machine W

/-- The value of a bit that an instruction tests or sets. -/
def Insn.regValue (insn : Insn) : Bool := insn &&& 0x40 != 0

section Evaluation

variable {W : Type} (bits : BitObjects W) (m : Machine W)

/-- `SetTimer`. -/
def Machine.setTimer (value : UInt8) : Machine W :=
  if value = 0xff &&& ~~~Insn.actTimerMask then { m with timer := UInt8.ofNat (m.id >>> 3) }
  else { m with timer := value }

/-- `eval_condition`. -/
def evalCondition (insn : Insn) : Except Stop (Bool × Machine W) :=
  if insn &&& Insn.ifStateMask = Insn.ifState then
    .ok (m.state == insn &&& ~~~Insn.ifStateMask, m)
  else if insn &&& Insn.ifRegMask = Insn.ifReg then do
    let value ← m.read bits (insn &&& Insn.ifRegBitnumMask).toNat
    .ok (value == Insn.regValue insn, m)
  else if insn &&& Insn.getLockMask = Insn.getLock then do
    let local_ := (insn &&& ~~~Insn.getLockMask).toNat
    if ← m.read bits local_ then .ok (false, m) else .ok (true, ← m.write bits local_ true)
  else if insn &&& Insn.relLockMask = Insn.relLock then do
    .ok (true, ← m.write bits (insn &&& ~~~Insn.relLockMask).toNat false)
  else if insn &&& Insn.ifMiscMask = Insn.ifMiscBase ∧ insn ≤ Insn.ifMiscBase ||| 5 then
    .error (.notModelled insn)
  else .error .dieAutHalt

/-- `eval_condition2`. -/
def evalCondition2 (insn arg2 : Insn) : Except Stop Bool :=
  if insn = Insn.ifAspect then .ok (m.aspect == arg2) else .error .dieAutHalt

/-- `eval_action`. -/
def evalAction (insn : Insn) : Except Stop (Machine W) :=
  if insn &&& Insn.actStateMask = Insn.actState then
    .ok { m with state := insn &&& ~~~Insn.actStateMask }
  else if insn &&& Insn.actTimerMask = Insn.actTimer then
    .ok (m.setTimer (insn &&& ~~~Insn.actTimerMask))
  else if insn &&& Insn.actRegMask = Insn.actReg then
    m.write bits (insn &&& Insn.ifRegBitnumMask).toNat (Insn.regValue insn)
  else if insn = Insn.actUpAspect then .ok { m with aspect := upAspect m.aspect }
  else if Insn.actMiscBase ||| 4 ≤ insn ∧ insn ≤ Insn.actMiscBase ||| 6 then
    .error (.notModelled insn)
  else .error .dieAutHalt

/-- `eval_action2`. -/
def evalAction2 (insn arg : Insn) : Except Stop (Machine W) :=
  if insn = Insn.actSetTrainid then .ok { m with trainId := arg }
  else if insn = Insn.actSetSrcplace then .ok { m with srcPlace := arg }
  else if insn = Insn.actSetAspect then .ok { m with aspect := arg }
  else if insn = Insn.actSetVarValueAspect then
    m.setState bits (arg &&& 31).toNat (arg >>> 5).toNat m.aspect
  else if insn = Insn.actGetVarValueAspect then do
    .ok { m with aspect := ← m.getState bits (arg &&& 31).toNat (arg >>> 5).toNat }
  else if insn ∈ [0x32, 0x34, 0x38, 0x39, 0x3A] then .error (.notModelled insn)
  else .error .dieAutHalt

end Evaluation

namespace Runner

variable {W : Type} (bits : BitObjects W) (code : List Insn) (r : Runner W)

/-- `ResetForAutomata`, where the machine has the state and timer of the automaton.  The effects are
those since then. -/
def resetForAutomata (m : Machine W) (startingOffset : Nat) : Runner W :=
  ⟨startingOffset, { m with imported := resetImports, effects := [] }⟩

/-- `load_insn`. -/
def loadInsn : Except Stop (Insn × Runner W) :=
  match code[r.ip]? with
  | none => .error .outOfBounds
  | some insn => .ok (insn, { r with ip := r.ip + 1 })

/-- `import_variable`. -/
def importVariable : Except Stop (Runner W) := do
  let (localIdx, r) ← r.loadInsn code
  let (argLow, r) ← r.loadInsn code
  let (low, r) ← r.loadInsn code
  let (high, r) ← r.loadInsn code
  let arg := (localIdx >>> 5).toNat <<< 8 ||| argLow.toNat
  let globalOfs := low.toNat ||| high.toNat <<< 8
  .ok { r with machine := ← r.machine.importBit (localIdx &&& 31).toNat globalOfs arg }

/-- The loop of `insn_load_event_id` over the bytes `n` to 0 of an event id. -/
def loadEventBytes (dest : Fin 2) : Nat → Runner W → Except Stop (Runner W)
  | n, r => do
    let (byte, r) ← r.loadInsn code
    let shift := UInt64.ofNat (n * 8)
    let id := (r.machine.eventIds dest &&& ~~~(0xff <<< shift)) ||| byte.toUInt64 <<< shift
    let r := { r with machine :=
      { r.machine with eventIds := Function.update r.machine.eventIds dest id } }
    match n with
    | 0 => .ok r
    | n + 1 => loadEventBytes dest n r

/-- The event id that a bit of the type byte of `insn_load_event_id` tells. -/
def eventIdIndex (type : Insn) (bit : Nat) : Fin 2 :=
  if type.toNat.testBit bit then 1 else 0

/-- `insn_load_event_id`. -/
def insnLoadEventId : Except Stop (Runner W) := do
  let (type, r) ← r.loadInsn code
  let dest := eventIdIndex type 6
  let src := eventIdIndex type 4
  let r := { r with machine :=
    { r.machine with
      eventIds := Function.update r.machine.eventIds dest (r.machine.eventIds src) } }
  loadEventBytes code dest (type &&& 7).toNat r

/-- `create_variable`. -/
def createVariable : Except Stop (ReadWriteBit × Runner W) := do
  let (arg1, r) ← r.loadInsn code
  let (arg2, r) ← r.loadInsn code
  let client := (arg1 &&& 0b11111).toNat
  match (arg1 >>> 5).toNat with
  | 0 =>
    .ok (.eventBit (r.machine.eventIds 1) (r.machine.eventIds 0) (1 <<< (arg2 &&& 7)) client
      (arg2 >>> 3).toNat, r)
  | 1 => .ok (.eventBlockBit (r.machine.eventIds 0) ((client &&& 7) <<< 8 ||| arg2.toNat), r)
  | 2 => .ok (.eventByteBlock (r.machine.eventIds 0) arg2.toNat, r)
  | 3 => .ok (.eventByteBlockConsumer (r.machine.eventIds 0) arg2.toNat, r)
  | _ => .error .dieUnsupported

/-- `declared_bits_[offset] = newbit`. -/
def declare (offset : Nat) (newbit : ReadWriteBit) : Runner W :=
  { r with machine :=
    { r.machine with
      declared := Function.update r.machine.declared offset (some newbit)
      world := bits.create offset newbit r.machine.world } }

/-- The loop over the conditions of an operation, up to the first that does not hold.  Each of them
has at least one byte. -/
def evalConditions (endif : Nat) : Nat → Runner W → Except Stop (Bool × Runner W)
  | 0, r => .ok (true, r)
  | fuel + 1, r =>
    if endif ≤ r.ip then .ok (true, r)
    else do
      let (insn, r) ← r.loadInsn code
      if insn &&& Insn.ifMiscaMask = Insn.ifMiscaBase then
        if endif ≤ r.ip then .error .dieAutTwoByteFail
        else
          let (arg, r) ← r.loadInsn code
          if ← evalCondition2 r.machine insn arg then evalConditions endif fuel r
          else .ok (false, r)
      else
        let (keep, machine) ← evalCondition bits r.machine insn
        if keep then evalConditions endif fuel { r with machine }
        else .ok (false, { r with machine })

/-- One action of an operation. -/
def execAction (endcond : Nat) : Except Stop (Runner W) := do
  let (insn, r) ← r.loadInsn code
  if insn = Insn.actImportVar then
    let r ← r.importVariable code
    if endcond < r.ip then .error .dieAutTwoByteFail else .ok r
  else if insn = Insn.actSetEventid then
    let r ← r.insnLoadEventId code
    if endcond < r.ip then .error .dieAutTwoByteFail else .ok r
  else if insn = Insn.actDefVar then
    let offset := r.ip
    let (newbit, r) ← r.createVariable code
    if endcond < r.ip then .error .dieAutTwoByteFail else .ok (r.declare bits offset newbit)
  else if insn = Insn.actSetVarValue then
    let (arg, r) ← r.loadInsn code
    let (value, r) ← r.loadInsn code
    if endcond < r.ip then .error .dieAutTwoByteFail
    else
      .ok { r with machine :=
        ← r.machine.setState bits (arg &&& 31).toNat (arg >>> 5).toNat value }
  else if insn &&& Insn.actMiscaMask = Insn.actMiscaBase then
    if endcond ≤ r.ip then .error .dieAutTwoByteFail
    else
      let (arg, r) ← r.loadInsn code
      .ok { r with machine := ← evalAction2 bits r.machine insn arg }
  else .ok { r with machine := ← evalAction bits r.machine insn }

/-- The loop over the actions of an operation.  Each of them has at least one byte. -/
def execActions (endcond : Nat) : Nat → Runner W → Except Stop (Runner W)
  | 0, r => .ok r
  | fuel + 1, r =>
    if endcond ≤ r.ip then .ok r
    else do execActions endcond fuel (← r.execAction bits code endcond)

/-- One operation, with its header. -/
def runOperation (insn : Insn) : Except Stop (Runner W) := do
  let numif := (insn &&& 0x0f).toNat
  let numact := (insn >>> 4).toNat
  let endif := r.ip + numif
  let endcond := endif + numact
  let (keep, r) ← evalConditions bits code endif numif r
  if keep then execActions bits code endcond numact r else .ok { r with ip := endcond }

/-- The loop of `Run`: a header that is 0 ends it. -/
def step : Runner W ⊕ Except Stop (Runner W) :=
  match r.loadInsn code with
  | .error stop => .inr (.error stop)
  | .ok (insn, r) =>
    if insn = 0 then .inr (.ok r)
    else
      match r.runOperation bits code insn with
      | .error stop => .inr (.error stop)
      | .ok r => .inl r

/-- `Run` ends with this result. -/
def Runs (result : Except Stop (Runner W)) : Prop := Run.Halts (step bits code) r result

end Runner

end OpenmrnCue.Automata
