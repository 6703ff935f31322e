import OpenmrnCue.Library.Trace
import OpenmrnCue.Logic.Runner
import OpenmrnCue.Logic.SoundRun

/-! Exported variables are created in the preamble of a program and imported where they are
declared.  The preamble has what the commands of the program put there themselves, and a command
that consists of others puts nothing there. -/

namespace OpenmrnCue.Logic

/-! ### The declarations in the preamble -/

/-- The `LOAD_STRING` and the `CREATE_VAR` of an exported variable. -/
def ExportedVariable.creation (v : ExportedVariable) : Bytes :=
  OpCode.loadString.toByte :: appendString v.name ++ opArg .createVar v.guid ++
    appendVarint (.ofInt (if v.type = .bool then -1 else v.numStates))

/-- The preamble has the instructions of every exported variable, in their order. -/
def PreambleComplete (commands : List Command) : Prop :=
  commands.flatMap Command.serializePreamble =
    (Command.exportsAll commands).flatMap ExportedVariable.creation

/-- The exported variables that are declared inside of a command that consists of others. -/
def Command.innerExports : Command → List ExportedVariable
  | .indirectVarCreate .. => []
  | c => c.exports

theorem Command.mem_exportsAll {commands : List Command} {v : ExportedVariable} :
    v ∈ Command.exportsAll commands ↔ ∃ c ∈ commands, v ∈ c.exports := by
  induction commands with
  | nil => simp [Command.exportsAll]
  | cons c cs ih => simp [Command.exportsAll, ih]

theorem ExportedVariable.creation_length (v : ExportedVariable) : 0 < v.creation.length := by
  simp [creation]

/-- A command has its exported variables in the preamble, or inside. -/
theorem Command.preamble_or_inner (c : Command) :
    c.serializePreamble = c.exports.flatMap ExportedVariable.creation ∧ c.innerExports = [] ∨
      c.serializePreamble = [] ∧ c.innerExports = c.exports := by
  cases c with
  | indirectVarCreate name _ guid type numStates =>
    exact .inl ⟨(List.flatMap_singleton _ _).symm, rfl⟩
  | _ => exact .inr ⟨rfl, rfl⟩

/-- What the preamble lacks. -/
theorem length_preamble (commands : List Command) :
    (commands.flatMap Command.serializePreamble).length +
        ((commands.flatMap Command.innerExports).flatMap ExportedVariable.creation).length =
      ((Command.exportsAll commands).flatMap ExportedVariable.creation).length := by
  induction commands with
  | nil => rfl
  | cons c cs ih =>
    simp only [List.flatMap_cons, Command.exportsAll, List.flatMap_append, List.length_append]
    rcases c.preamble_or_inner with ⟨hpreamble, hinner⟩ | ⟨hpreamble, hinner⟩
    · rw [hpreamble, hinner, List.flatMap_nil, List.length_nil]
      omega
    · rw [hpreamble, hinner, List.length_nil]
      omega

/-- The preamble is complete if every exported variable is a command of the program. -/
theorem preambleComplete_iff (commands : List Command) :
    PreambleComplete commands ↔ ∀ c ∈ commands, c.innerExports = [] := by
  constructor
  · intro h c hc
    have hlen := length_preamble commands
    rw [show commands.flatMap Command.serializePreamble = _ from h, Nat.add_eq_left,
      List.length_eq_zero_iff] at hlen
    refine List.eq_nil_iff_forall_not_mem.mpr fun v hv => ?_
    have hinner : v ∈ commands.flatMap Command.innerExports := List.mem_flatMap.mpr ⟨c, hc, hv⟩
    have hnil := List.flatMap_eq_nil_iff.mp hlen v hinner
    have := v.creation_length
    rw [hnil] at this
    simp at this
  · intro h
    unfold PreambleComplete
    induction commands with
    | nil => rfl
    | cons c cs ih =>
      have hcs := ih fun c hc => h c (List.mem_cons_of_mem _ hc)
      rw [List.flatMap_cons, hcs, Command.exportsAll, List.flatMap_append]
      rcases c.preamble_or_inner with ⟨hpreamble, -⟩ | ⟨hpreamble, hinner⟩
      · rw [hpreamble]
      · rw [hpreamble, ← hinner, h c List.mem_cons_self]
        rfl

/-! ### The numbers of the variables -/

mutual

/-- The numbers of the static and the exported variables of a command, at any depth. -/
def Command.guids : Command → List Int
  | .indirectVarCreate _ _ guid _ _ => [guid]
  | .staticVarCreate _ _ guid _ _ => [guid]
  | .commandSequence commands _ _ => Command.guidsAll commands
  | .ifThen _ thenCase => thenCase.guids
  | .ifThenElse _ thenCase elseCase => thenCase.guids ++ elseCase.guids
  | .function _ _ _ body => Command.guidsAll body
  | _ => []

def Command.guidsAll : List Command → List Int
  | [] => []
  | c :: cs => c.guids ++ Command.guidsAll cs

end

mutual

theorem Command.guid_mem : (c : Command) → ∀ v ∈ c.exports, v.guid ∈ c.guids
  | .indirectVarCreate .., v, hv => by
    obtain rfl := List.mem_singleton.mp hv
    exact List.mem_singleton_self _
  | .commandSequence commands _ _, v, hv => Command.guid_memAll commands v hv
  | .ifThen _ thenCase, v, hv => thenCase.guid_mem v hv
  | .ifThenElse _ thenCase elseCase, v, hv => by
    rcases List.mem_append.mp hv with hv | hv
    · exact List.mem_append_left _ (thenCase.guid_mem v hv)
    · exact List.mem_append_right _ (elseCase.guid_mem v hv)
  | .function _ _ _ body, v, hv => Command.guid_memAll body v hv
  | .empty, _, h | .staticVarCreate .., _, h | .localVarCreate .., _, h
  | .numericAssignment .., _, h | .booleanAssignment .., _, h | .functionCall _, _, h
  | .printString _, _, h | .printInt _, _, h | .terminate, _, h => by cases h

theorem Command.guid_memAll : (cs : List Command) →
    ∀ v ∈ Command.exportsAll cs, v.guid ∈ Command.guidsAll cs
  | [], _, h => by cases h
  | c :: cs, v, hv => by
    rcases List.mem_append.mp hv with hv | hv
    · exact List.mem_append_left _ (c.guid_mem v hv)
    · exact List.mem_append_right _ (Command.guid_memAll cs v hv)

end

mutual

/-- The code of a program has at least a byte for each variable that has a number. -/
theorem Command.length_guids_le : (c : Command) → ∀ (root : Bool) (d : Driver) (ofs : Nat),
    c.guids.length ≤ (itemBytes (c.emit root d ofs).items).length
  | .indirectVarCreate .., _, _, _ | .staticVarCreate .., _, _, _ => by
    simp [Command.guids, Command.emit, Emitted.plain, Item.bytes, opArg]
  | .commandSequence commands _ _, root, d, ofs => by
    have := Command.length_guidsAll_le commands root d ofs
    simp only [Command.guids, Command.emit, itemBytes_append, List.length_append]
    omega
  | .ifThen _ thenCase, _, d, _ => by
    have := thenCase.length_guids_le false d 0
    simp only [Command.guids, Command.emit, itemBytes_append, itemBytes_cons, List.length_append]
    omega
  | .ifThenElse _ thenCase elseCase, _, d, _ => by
    have := thenCase.length_guids_le false d 0
    have := elseCase.length_guids_le false (thenCase.emit false d 0).driver 0
    simp only [Command.guids, Command.emit, itemBytes_append, itemBytes_cons, List.length_append]
    omega
  | .function _ _ _ body, _, d, _ => by
    have := Command.length_guidsAll_le body false d 0
    simp only [Command.guids, Command.emit, itemBytes_append, itemBytes_cons, List.length_append]
    omega
  | .empty, _, _, _ | .localVarCreate .., _, _, _ | .numericAssignment .., _, _, _
  | .booleanAssignment .., _, _, _ | .functionCall _, _, _, _ | .printString _, _, _, _
  | .printInt _, _, _, _ | .terminate, _, _, _ => Nat.zero_le _

theorem Command.length_guidsAll_le : (cs : List Command) →
    ∀ (root : Bool) (d : Driver) (ofs : Nat),
    (Command.guidsAll cs).length ≤ (itemBytes (Command.emitAll root d ofs cs).items).length
  | [], _, _, _ => Nat.zero_le _
  | c :: cs, root, d, ofs => by
    have := c.length_guids_le root d ofs
    have := Command.length_guidsAll_le cs root (c.emit root d ofs).driver
      (ofs + (itemBytes (c.emit root d ofs).items).length)
    simp only [Command.guidsAll, Command.emitAll, itemBytes_append, List.length_append]
    omega

end

/-- The numbers `gs` are given out one after the other, from `start` up to `stop`. -/
def Numbered (start : Int) (gs : List Int) (stop : Int) : Prop :=
  stop = start + gs.length ∧ ∀ g ∈ gs, start ≤ g ∧ g < stop

theorem Numbered.nil (start : Int) : Numbered start [] start := ⟨by simp, by simp⟩

theorem Numbered.append {start mid stop : Int} {gs gs' : List Int} (h : Numbered start gs mid)
    (h' : Numbered mid gs' stop) : Numbered start (gs ++ gs') stop := by
  obtain ⟨hmid, hgs⟩ := h
  obtain ⟨hstop, hgs'⟩ := h'
  refine ⟨by rw [List.length_append]; omega, fun g hg => ?_⟩
  rcases List.mem_append.mp hg with hg | hg
  · have := hgs g hg
    omega
  · have := hgs' g hg
    omega

namespace Driver

@[simp] theorem nextGuid_setContext (d : Driver) (c : ParsingContext) :
    (d.setContext c).nextGuid = d.nextGuid := by
  unfold setContext
  split <;> rfl

@[simp] theorem nextGuid_setSymbol (d : Driver) (name : String) (s : Symbol) :
    (d.setSymbol name s).nextGuid = d.nextGuid := d.nextGuid_setContext _

@[simp] theorem nextGuid_setFrameSize (d : Driver) (n : Nat) :
    (d.setFrameSize n).nextGuid = d.nextGuid := d.nextGuid_setContext _

@[simp] theorem nextGuid_trimStack (d : Driver) (n : Nat) :
    (d.trimStack n).nextGuid = d.nextGuid := d.nextGuid_setContext _

@[simp] theorem nextGuid_modifySymbol (d : Driver) (name : String) (change : Symbol → Symbol) :
    (d.modifySymbol name change).nextGuid = d.nextGuid := by
  unfold modifySymbol
  split
  · exact d.nextGuid_setSymbol _ _
  · split <;> rfl

theorem nextGuid_allocateVariable {d d' : Driver} {name : String} {type : DataType}
    {access : Access} {s : Symbol} (h : d.allocateVariable name type access = .ok (s, d')) :
    d'.nextGuid = d.nextGuid := by
  simp only [allocateVariable, Except.bind_eq_ok, Except.pure_eq_ok, Prod.mk.injEq] at h
  obtain ⟨_, _, _, rfl⟩ := h
  simp

end Driver

theorem nextGuid_closeBrace (n : Nat) (cs : List Command) (d : Driver) :
    (closeBrace n cs d).2.nextGuid = d.nextGuid := by
  unfold closeBrace
  split <;> simp

theorem guids_closeBrace (n : Nat) (cs : List Command) (d : Driver) :
    (closeBrace n cs d).1.guids = Command.guidsAll cs := by
  unfold closeBrace
  split <;> rfl

theorem ArgumentTree.nextGuid_buildAll : (args : List ArgumentTree) → ∀ {d d' : Driver}
    {formals : List FunctionArgument}, ArgumentTree.buildAll d args = .ok (formals, d') →
    d'.nextGuid = d.nextGuid
  | [], _, _, _, h => by cases h; rfl
  | arg :: args, d, d', formals, h => by
    simp only [ArgumentTree.buildAll, Except.bind_eq_ok, Except.pure_eq_ok, Prod.mk.injEq] at h
    obtain ⟨_, _, ⟨s, d1⟩, hd1, ⟨fs, d2⟩, hd2, _, rfl⟩ := h
    exact (ArgumentTree.nextGuid_buildAll args hd2).trans (Driver.nextGuid_allocateVariable hd1)

theorem nextGuid_openFunction {d d' : Driver} {storage : Access} {type : DataType} {name : String}
    {args : List ArgumentTree} {formals : List FunctionArgument}
    (h : openFunction d storage type name args = .ok (formals, d')) :
    d'.nextGuid = d.nextGuid := by
  obtain ⟨-, -, d1, hargs, rfl⟩ := openFunction_cases h
  simp [ArgumentTree.nextGuid_buildAll args hargs, Driver.entered, Driver.enterFunction]

theorem Declarator.build_numbered {storage : Access} {type : DataType} {d d' : Driver}
    {v : Declarator} {c : Command} (h : v.build storage type d = .ok (c, d')) :
    Numbered d.nextGuid c.guids d'.nextGuid := by
  simp only [Declarator.build, Except.bind_eq_ok] at h
  obtain ⟨_, _, ⟨declName, numStates⟩, _, init, _, h⟩ := h
  obtain ⟨-, h⟩ := Except.guard_eq_ok.mp h
  obtain ⟨access, s, d1, hd1, hcase⟩ := Driver.declareVariable_eq_ok h
  have hnext := Driver.nextGuid_allocateVariable hd1
  rcases hcase with ⟨-, rfl, _, rfl⟩ | ⟨-, rfl, _, -, rfl⟩ | ⟨-, rfl, _, -, rfl⟩
  · simp [Numbered, Command.guids, Driver.allocateGuid, hnext] <;> omega
  · simp [Numbered, Command.guids, Driver.allocateGuid, hnext] <;> omega
  · simp [Numbered, Command.guids, hnext]

theorem Declarator.buildAll_numbered {storage : Access} {type : DataType} :
    (vs : List Declarator) → ∀ {d d' : Driver} {cs : List Command},
    Declarator.buildAll storage type d vs = .ok (cs, d') →
    Numbered d.nextGuid (Command.guidsAll cs) d'.nextGuid
  | [], d, _, _, h => by
    cases h
    exact .nil _
  | v :: vs, d, d', cs, h => by
    simp only [Declarator.buildAll, Except.bind_eq_ok, Except.pure_eq_ok] at h
    obtain ⟨⟨c, d1⟩, hc, ⟨cs', d2⟩, hcs, h⟩ := h
    cases h
    exact (Declarator.build_numbered hc).append (Declarator.buildAll_numbered vs hcs)

theorem guids_sequence (c : Command) (cs : List Command) :
    (sequence c cs).guids = c.guids ++ Command.guidsAll cs := by
  unfold sequence
  split
  next h => simp [h, Command.guidsAll]
  · rfl

theorem PrintTree.guids_buildAll {d : Driver} : (ts : List PrintTree) → ∀ {cs : List Command},
    PrintTree.buildAll d ts = .ok cs → Command.guidsAll cs = []
  | [], _, h => by cases h; rfl
  | t :: ts, cs, h => by
    simp only [PrintTree.buildAll, Except.bind_eq_ok, Except.pure_eq_ok] at h
    obtain ⟨c, hc, cs', hcs, rfl⟩ := h
    rw [Command.guidsAll, PrintTree.guids_buildAll ts hcs, List.append_nil]
    cases t with
    | text t => cases hc; rfl
    | exp e =>
      simp only [PrintTree.build, Except.bind_eq_ok, Except.pure_eq_ok] at hc
      obtain ⟨_, _, rfl⟩ := hc
      rfl

mutual

/-- The variables of a command are numbered from the counter of the driver. -/
theorem CommandTree.build_numbered : (t : CommandTree) → ∀ {d d' : Driver} {c : Command},
    t.build d = .ok (c, d') → Numbered d.nextGuid c.guids d'.nextGuid
  | .assignInt name value, d, d', c, h | .assignBool name value, d, d', c, h => by
    simp only [CommandTree.build, Except.bind_eq_ok, Except.pure_eq_ok] at h
    obtain ⟨_, _, _, _, _, _, h⟩ := h
    cases h
    exact .nil _
  | .braced commands, d, d', c, h => by
    simp only [CommandTree.build, Except.bind_eq_ok, Except.pure_eq_ok] at h
    obtain ⟨⟨cs, d1⟩, hcs, h⟩ := h
    have hguids := guids_closeBrace d.currentContext.frameSize cs d1
    have hnext := nextGuid_closeBrace d.currentContext.frameSize cs d1
    rw [h] at hguids hnext
    rw [hguids, hnext]
    exact CommandTree.buildAll_numbered commands hcs
  | .ifThen condition thenCase, d, d', c, h => by
    simp only [CommandTree.build, Except.bind_eq_ok, Except.pure_eq_ok] at h
    obtain ⟨_, _, ⟨cs, d1⟩, hcs, h⟩ := h
    cases h
    rw [nextGuid_closeBrace, Command.guids, guids_closeBrace]
    exact CommandTree.buildAll_numbered thenCase hcs
  | .ifThenElse condition thenCase elseCase, d, d', c, h => by
    simp only [CommandTree.build, Except.bind_eq_ok] at h
    obtain ⟨_, _, ⟨cs, d1⟩, hcs, h⟩ := h
    obtain ⟨-, h⟩ := Except.require_eq_ok.mp h
    simp only [Except.bind_eq_ok, Except.pure_eq_ok] at h
    obtain ⟨⟨c2, d2⟩, helse, h⟩ := h
    cases h
    have helse := elseCase.build_numbered helse
    rw [nextGuid_closeBrace] at helse
    rw [Command.guids, guids_closeBrace]
    exact (CommandTree.buildAll_numbered thenCase hcs).append helse
  | .variableDecl storage type first more semicolon, d, d', c, h => by
    simp only [CommandTree.build, Except.bind_eq_ok, Except.pure_eq_ok] at h
    obtain ⟨⟨c1, d1⟩, hc, ⟨cs, d2⟩, hcs, h⟩ := h
    cases h
    rw [guids_sequence]
    exact (Declarator.build_numbered hc).append (Declarator.buildAll_numbered more hcs)
  | .function storage type name args body, d, d', c, h => by
    simp only [CommandTree.build, Except.bind_eq_ok, Except.pure_eq_ok] at h
    obtain ⟨⟨formals, d1⟩, hopen, ⟨cs, d2⟩, hcs, h⟩ := h
    cases h
    rw [← nextGuid_openFunction hopen]
    have hbody : Numbered d1.nextGuid (Command.guidsAll cs) d2.nextGuid :=
      CommandTree.buildAll_numbered body hcs
    exact hbody
  | .fncall name args, d, d', c, h => by
    simp only [CommandTree.build, Except.bind_eq_ok, Except.pure_eq_ok] at h
    obtain ⟨_, _, _, _, _, _, h⟩ := h
    cases h
    exact .nil _
  | .print first more, d, d', c, h => by
    simp only [CommandTree.build, Except.bind_eq_ok, Except.pure_eq_ok] at h
    obtain ⟨c1, hc, cs, hcs, h⟩ := h
    cases h
    have hall : PrintTree.buildAll d (first :: more) = .ok (c1 :: cs) := by
      simp [PrintTree.buildAll, hc, hcs]
    rw [guids_sequence, ← Command.guidsAll, PrintTree.guids_buildAll _ hall]
    exact .nil _
  | .terminate, d, d', c, h => by
    cases h
    exact .nil _

theorem CommandTree.buildAll_numbered : (ts : List CommandTree) → ∀ {d d' : Driver}
    {cs : List Command}, CommandTree.buildAll d ts = .ok (cs, d') →
    Numbered d.nextGuid (Command.guidsAll cs) d'.nextGuid
  | [], d, _, _, h => by
    cases h
    exact .nil _
  | t :: ts, d, d', cs, h => by
    simp only [CommandTree.buildAll, Except.bind_eq_ok, Except.pure_eq_ok] at h
    obtain ⟨⟨c, d1⟩, hc, ⟨cs', d2⟩, hcs, h⟩ := h
    cases h
    exact (t.build_numbered hc).append (CommandTree.buildAll_numbered ts hcs)

end

/-- The exported variables of a program that fits in a block have the numbers of the block. -/
theorem exports_inBlock {block : UInt8} {unit : List CommandTree} {commands : List Command}
    {d : Driver} (hparse : (Driver.start (block.toNat <<< 16)).parseFile unit = .ok (commands, d))
    (hshort : (d.serialize commands).1.length < 2 ^ 16) :
    ∀ v ∈ Command.exportsAll commands,
      block.toNat * 2 ^ 16 ≤ v.guid ∧ v.guid < (block.toNat + 1) * 2 ^ 16 := by
  intro v hv
  obtain ⟨-, hbuild⟩ := Except.require_eq_ok.mp hparse
  obtain ⟨hstop, hrange⟩ := CommandTree.buildAll_numbered unit hbuild
  have hguid := hrange v.guid (Command.guid_memAll commands v hv)
  have hlen := Command.length_guidsAll_le commands true d
    (itemBytes (preambleItems commands)).length
  rw [Driver.serialize_eq_emit] at hshort
  simp only [Driver.emit, itemBytes_append, List.length_append] at hshort
  have hstart : (Driver.start (block.toNat <<< 16)).nextGuid = (block.toNat * 2 ^ 16 : Int) := by
    simp [Driver.start, Nat.shiftLeft_eq]
  omega

/-! ### What a successful preamble leaves behind -/

/-- The key of a variable in `external_variables_`. -/
def variableKey (guid : Int) : UInt32 := (Int32.ofInt guid).toUInt32

namespace VM

variable {W H : Type} {f : VariableFactory W H}

/-- `CREATE_VAR` ends the run, or the variable is there. -/
theorem step_createVar_defines {vm : VM W H} {guid numStates : Int} {tail : Bytes}
    (hrest : vm.rest = Item.bytes (.createVar guid numStates) ++ tail) :
    (∃ final, step f vm = .inr (.exception, final)) ∨ ∃ vm', step f vm = .inl vm' ∧
      vm'.rest = tail ∧ vm'.code = vm.code ∧ vm'.externalVariables (variableKey guid) ≠ none := by
  rw [step_createVar_eq hrest]
  rcases f.createVariable vm.world (vm.creationRequest (.ofInt numStates)) with
    ⟨_ | handle, after, w⟩
  · exact .inl ⟨_, rfl⟩
  · refine .inr ⟨_, rfl, rest_advance hrest, rfl, ?_⟩
    simp [variableKey]

-- Induction on the commands, as the code of the preamble follows them; a variable that is there
-- stays until the end of the run.
theorem preamble_defines (commands : List Command) {vm final : VM W H} {tail : Bytes} {fuel : Nat}
    (hrest : vm.rest = itemBytes (commands.flatMap Command.emitPreamble) ++
      OpCode.terminate.toByte :: tail)
    (hshort : vm.code.length < 2 ^ 16)
    (hrun : Run.run (step f) fuel vm = some (.success, final)) :
    ∀ c ∈ commands, c.innerExports = [] → ∀ v ∈ c.exports,
      final.externalVariables (variableKey v.guid) ≠ none := by
  induction commands generalizing vm fuel with
  | nil => nofun
  | cons c cs ih =>
    intro c' hc' hinner v hv
    cases c with
    | indirectVarCreate name ofs guid type numStates =>
      simp only [List.flatMap_cons, Command.emitPreamble, List.cons_append, List.nil_append,
        itemBytes_cons, List.append_assoc] at hrest
      have hload := step_loadString (f := f) hrest hshort
      have hlen : (Item.bytes (.loadString name)).length = 1 + (appendString name).length := by
        simp [Item.bytes, Nat.add_comm]
      have hrest1 : ({ vm.advance (1 + (appendString name).length) with
          stringAcc := name } : VM W H).rest =
          Item.bytes (.createVar guid (if type = .bool then -1 else numStates)) ++
            (itemBytes (cs.flatMap Command.emitPreamble) ++ OpCode.terminate.toByte :: tail) := by
        have := rest_advance hrest
        rwa [hlen] at this
      obtain _ | _ | fuel := fuel
      · cases hrun
      · simp only [Run.run, hload] at hrun
        cases hrun
      rcases step_createVar_defines (f := f) hrest1 with
        ⟨vm', hstep⟩ | ⟨vm', hstep, hrest2, hcode, hdefined⟩
      · simp only [Run.run, hload, hstep] at hrun
        cases hrun
      · simp only [Run.run, hload, hstep] at hrun
        rcases List.mem_cons.mp hc' with rfl | hc'
        · obtain rfl := List.mem_singleton.mp hv
          exact (Keeps.of_run hrun).kept _ hdefined
        · have hshort' : vm'.code.length < 2 ^ 16 := by rw [hcode]; exact hshort
          exact ih hrest2 hshort' hrun c' hc' hinner v hv
    | _ =>
      rcases List.mem_cons.mp hc' with rfl | hc'
      · rw [show Command.exports _ = [] from hinner] at hv
        cases hv
      · exact ih hrest hshort hrun c' hc' hinner v hv

end VM

section

variable {W H : Type} {f : VariableFactory W H} {vm vm' : VM W H} {b : UInt8}

theorem runPreamble_defines {commands : List Command} {d : Driver}
    (h : runPreamble f vm b (d.serialize commands).1 = some (.success, vm')) :
    ∀ c ∈ commands, c.innerExports = [] → ∀ v ∈ c.exports,
      vm'.externalVariables (variableKey v.guid) ≠ none := by
  obtain ⟨loaded, hload, hrun⟩ := Option.bind_eq_some_iff.mp h
  obtain ⟨hshort, hpresent, hcode, -⟩ := VM.setBlockCode_eq_some hload
  obtain ⟨start, henter, hcode', hip, hpreamble, -⟩ := loaded.enterPreamble hpresent
  rw [hcode] at hcode'
  rw [← hcode'] at hshort
  have hrest : start.rest = itemBytes (preambleItems commands) ++
      itemBytes (Command.emitAll true d (itemBytes (preambleItems commands)).length
        commands).items := by
    rw [VM.rest, hcode', hip, List.drop_zero, Driver.serialize_eq_emit, Driver.emit,
      itemBytes_append]
  obtain ⟨inside, hinside, hrest', hcode'', -⟩ := VM.run_ifPreamble f hrest hshort hpreamble
  have hroom := VM.two_le_of_preamble hrest
  rw [VM.executeBlock, henter, ← hcode'] at hrun
  obtain ⟨n, hn⟩ : ∃ n, start.code.length + 1 = n + 2 := ⟨start.code.length - 1, by omega⟩
  rw [hn, hinside] at hrun
  rw [← hcode''] at hshort
  exact VM.preamble_defines commands hrest' hshort hrun

/-! ### Executions after the preamble -/

/-- The key of a variable of the block is its number. -/
theorem toNat_variableKey {guid : Int} (hlow : b.toNat * 2 ^ 16 ≤ guid)
    (hhigh : guid < (b.toNat + 1) * 2 ^ 16) : ((variableKey guid).toNat : Int) = guid := by
  have hb := b.toNat_lt
  rw [variableKey, toNat_toUInt32_ofInt]
  unfold toUnsigned
  omega

theorem run_few {world : W} {history : List RunnerEvent}
    (h : Trace.run (runnerStep f) (VM.fresh world) history = some vm) :
    vm.blocks.length ≤ 256 :=
  Trace.invariant_of_step (I := fun _ (vm : VM W H) => vm.blocks.length ≤ 256)
    (Nat.zero_le _) (fun _ _ _ _ hfew hstep => runnerStep_few hstep hfew) h

theorem run_spares {history : List RunnerEvent}
    (h : Trace.run (runnerStep f) vm history = some vm')
    (hother : ∀ lb, RunnerEvent.compile b lb ∉ history) : VM.Spares b vm vm' := by
  induction history generalizing vm with
  | nil =>
    cases h
    exact (VM.Keeps.refl _).spares b
  | cons e history ih =>
    rw [Trace.run_cons, Option.bind_eq_some_iff] at h
    obtain ⟨mid, hstep, hrun⟩ := h
    have hfirst : VM.Spares b vm mid :=
      runnerStep_spares hstep fun lb heq => hother lb (heq ▸ List.mem_cons_self)
    exact hfirst.trans (ih hrun fun lb hmem => hother lb (List.mem_cons_of_mem _ hmem))

/-- An execution begins in a good state. -/
theorem Ready.enter {e : Emitted} {imports : Int → Prop} (hprog : SoundProgram imports false e)
    (hloaded : Loaded b.toNat e false vm) (isPreamble : Bool) :
    Ready b.toNat e imports false ((vm.clear.setPreamble isPreamble).enterBlock b) := by
  rw [VM.enterBlock_eq (vm.clear.setPreamble isPreamble) hloaded.present]
  exact ⟨⟨hloaded.code, hloaded.short, hloaded.present, hloaded.small, hloaded.few⟩, rfl, rfl,
    ⟨_, _, rfl, rfl⟩, trivial, true, _, 0, [], e.items, ⟨[], [], by simp, rfl, fun _ => rfl⟩,
    hprog.code, ⟨[], rfl⟩, nofun⟩

/-- The run from `start` executes the code of the block `b` only.  In the block 0 it always does. -/
def StaysIn (f : VariableFactory W H) (b : Nat) (start : VM W H) : Prop :=
  b = 0 ∨ ∀ t, Run.Reaches (VM.step f) start t → t.ipBlockNum = b

/-- Every state of a run that stays in its block is good, and no variable is lost. -/
theorem Ready.reaches_inside {e : Emitted} {imports : Int → Prop} {n : Nat} {start t : VM W H}
    (hprog : SoundProgram imports false e) (hstart : Ready n e imports false start)
    (hstays : StaysIn f n start) (hreach : Run.Reaches (VM.step f) start t) :
    Ready n e imports false t ∧
      ∀ guid, start.externalVariables guid ≠ none → t.externalVariables guid ≠ none := by
  induction hreach with
  | refl => exact ⟨hstart, fun _ h => h⟩
  | @tail t u hreach hstep ih =>
    have hnext := ih.1.step (f := f) hprog nofun nofun
    rw [hstep] at hnext
    refine ⟨hnext.2 ?_, fun guid hg => hnext.1 guid (ih.2 guid hg)⟩
    rcases hstays with hzero | hstays
    · exact .inr hzero
    · exact .inl (hstays u (hreach.tail hstep))

/-- A run does not fail at an `IMPORT_VAR` if the variables are there. -/
theorem Ready.imports_found {e : Emitted} {imports : Int → Prop} {n : Nat} {start final : VM W H}
    (hprog : SoundProgram imports false e) (hstart : Ready n e imports false start)
    (hstays : StaysIn f n start)
    (hdefined : ∀ guid, imports guid → start.externalVariables (variableKey guid) ≠ none)
    (hhalts : Run.Halts (VM.step f) start (.exception, final)) (guid : Int32) :
    final.error ≠ some (.unknownGuid guid) := by
  obtain ⟨t, hreach, hstep⟩ := hhalts
  obtain ⟨hready, hkept⟩ := Ready.reaches_inside hprog hstart hstays hreach
  have hproceeds := hready.step (f := f) hprog nofun nofun
  rw [hstep] at hproceeds
  obtain ⟨err, herr, -, hunknown⟩ := hproceeds rfl
  intro hguid
  obtain rfl := Option.some.inj (herr.symm.trans hguid)
  obtain ⟨missing, himport, hnone⟩ := hunknown rfl
  exact hkept _ (hdefined missing himport) hnone

/-- After every run in which the preamble of the code `bc` succeeded in the block `b`, and in which
that block was not compiled again since, no execution of the code fails for a variable that is not
there. -/
def ImportsFound (f : VariableFactory W H) (world : W) (b : UInt8) (bc : Bytes) : Prop :=
  ∀ before vm vm1, Trace.run (runnerStep f) (VM.fresh world) before = some vm →
    runPreamble f vm b bc = some (.success, vm1) →
    ∀ after vm2, Trace.run (runnerStep f) vm1 after = some vm2 →
      (∀ lb, RunnerEvent.compile b lb ∉ after) →
      ∀ final, StaysIn f b.toNat ((vm2.clear.setPreamble false).enterBlock b) →
        Run.Halts (VM.step f) ((vm2.clear.setPreamble false).enterBlock b) (.exception, final) →
        ∀ guid, final.error ≠ some (.unknownGuid guid)

theorem importsFound {unit : List CommandTree} {commands : List Command} {d : Driver}
    (hparse : (Driver.start (b.toNat <<< 16)).parseFile unit = .ok (commands, d))
    (htop : ∀ c ∈ commands, c.innerExports = []) (f : VariableFactory W H) (world : W) :
    ImportsFound f world b (d.serialize commands).1 := by
  intro before vm vm1 hbefore hpreamble after vm2 hafter hother final hstays hhalts
  obtain ⟨hshort, hpresent, hcode, hfew⟩ := runPreamble_loaded hpreamble
  have hspares := run_spares hafter hother
  have hb := b.toNat_lt
  have hprog : SoundProgram (fun guid => ∃ v ∈ Command.exportsAll commands, v.guid = guid) false
      (d.emit commands) :=
    Driver.sound_emit hparse (fun v hv => ⟨v, hv, rfl⟩) false
  have hloaded : Loaded b.toNat (d.emit commands) false vm2 := by
    have hpresent : b.toNat < vm1.blocks.length := hpresent
    have hlen : vm1.blocks.length ≤ vm2.blocks.length := hspares.length
    have hfew2 : vm2.blocks.length ≤ 256 := hspares.few (hfew (run_few hbefore))
    have hbytes : (d.serialize commands).1 = itemBytes (d.emit commands).items := by
      rw [Driver.serialize_eq_emit]
    exact ⟨by rw [hspares.code, hcode, hbytes], by rw [← hbytes]; exact hshort, by omega, by omega,
      fun _ => by omega⟩
  refine Ready.imports_found hprog (Ready.enter hprog hloaded false) hstays ?_ hhalts
  rintro _ ⟨v, hv, rfl⟩
  obtain ⟨hlow, hhigh⟩ := exports_inBlock hparse hshort v hv
  have hkey := toNat_variableKey hlow hhigh
  have hdefined : vm2.externalVariables (variableKey v.guid) ≠ none := by
    obtain ⟨c, hc, hvc⟩ := Command.mem_exportsAll.mp hv
    exact hspares.kept _ (by omega) (by omega)
      (runPreamble_defines hpreamble c hc (htop c hc) v hvc)
  exact (VM.keeps_enterBlock (vm2.clear.setPreamble false) b).kept _ hdefined

end

/-- `exported bool a; exported bool b;` -/
def twoDeclarations : List CommandTree :=
  [.variableDecl .indirectVar .bool ⟨"a", [], .none⟩ [] true,
    .variableDecl .indirectVar .bool ⟨"b", [], .none⟩ [] true]

/-- `exported bool a, b;` -/
def oneDeclaration : List CommandTree :=
  [.variableDecl .indirectVar .bool ⟨"a", [], .none⟩ [⟨"b", [], .none⟩] true]

/-- The result of a preamble, and of an execution behind it, in the block 0. -/
def preambleThenStep (bc : Bytes) (fuel : Nat) : Option (Verdict × Verdict × Option VMError) := do
  let r ← runPreamble .zero (VM.fresh (H := Unit) ()) 0 bc
  let r' ← stepBlock .zero fuel r.2 0
  return (r.1, r'.1, r'.2.error)

end OpenmrnCue.Logic
