import OpenmrnCue.Library.Trace
import OpenmrnCue.Logic.Runner

/-! The requests that the runner's compilations hand to the variable factory.  The machine keeps one
`VariableCreationRequest` for all of them, and clears it only behind a variable that was made. -/

namespace OpenmrnCue.Logic

/-- A call of `create_variable`: the request that it is handed, whether it makes a variable, and the
request as it leaves it. -/
structure CreateCall where
  handed : VariableCreationRequest
  accepted : Bool
  left : VariableCreationRequest
  deriving DecidableEq, Repr

section

variable {W H : Type}

/-- The factory `f` with a log of the calls of `create_variable`. -/
def VariableFactory.logged (f : VariableFactory W H) :
    VariableFactory (W × List CreateCall) H where
  createVariable world request :=
    match f.createVariable world.1 request with
    | (made, left, w) => (made, left, w, world.2 ++ [⟨request, made.isSome, left⟩])
  read world handle arg :=
    match f.read world.1 handle arg with
    | (value, failed, w) => (value, failed, w, world.2)
  write world handle arg value :=
    match f.write world.1 handle arg value with
    | (failed, w) => (failed, w, world.2)

end

/-! ### What an instruction asks for -/

/-- A `CREATE_VAR` with the text that is loaded before it, and its second operand. -/
structure Creation where
  name : Bytes
  numStates : Int32
  deriving DecidableEq, Repr

/-- The request that `CREATE_VAR` makes of what the member `variable_request_` holds. -/
def Creation.requestOver (c : Creation) (block : UInt8) (left : VariableCreationRequest) :
    VariableCreationRequest :=
  let request := { left with name := c.name, blockNum := block }
  if 0 ≤ c.numStates then { request with type := .int, numStates := c.numStates } else request

/-- The request that depends on the instruction only. -/
def Creation.request (c : Creation) (block : UInt8) : VariableCreationRequest :=
  c.requestOver block .cleared

/-- The `CREATE_VAR` in the preamble of a command. -/
def Command.creations : Command → List Creation
  | .indirectVarCreate name _ _ type numStates =>
    [⟨name, .ofInt (if type = .bool then -1 else numStates)⟩]
  | _ => []

/-- The `CREATE_VAR` that the preamble of the block comes to, in their order. -/
def LogicBlock.creations (lb : LogicBlock) (block : UInt8) : List Creation :=
  match lb.parse block with
  | none => []
  | some (commands, _) => if lb.enabled then commands.flatMap Command.creations else []

theorem Creation.request_fields (c : Creation) (block : UInt8) :
    (c.request block).name = c.name ∧ (c.request block).blockNum = block ∧
      (0 ≤ c.numStates → (c.request block).type = .int ∧
        (c.request block).numStates = c.numStates) ∧
      (¬0 ≤ c.numStates → (c.request block).type = .bool) := by
  unfold request requestOver
  split <;> simp_all [VariableCreationRequest.cleared]

/-- What the member holds does not show in the request. -/
def Creation.Unaffected (c : Creation) (left : VariableCreationRequest) : Prop :=
  left.defaultEvent = 0 ∧ left.defaultOnEvent = 0 ∧
    (¬0 ≤ c.numStates → left.type = .bool ∧ left.numStates = 2)

theorem Creation.requestOver_eq_iff (c : Creation) (block : UInt8)
    (left : VariableCreationRequest) :
    c.requestOver block left = c.request block ↔ c.Unaffected left := by
  unfold request requestOver Unaffected
  split
  next h => simp [VariableCreationRequest.cleared, h]
  next h => simp [VariableCreationRequest.cleared, h]; tauto

/-- The calls for the `CREATE_VAR` of a preamble: they end with the first one that the factory
rejects, and only what the member holds at first can show in a request. -/
inductive Served (block : UInt8) :
    VariableCreationRequest → List Creation → List CreateCall → VariableCreationRequest → Prop
  | done (left : VariableCreationRequest) : Served block left [] [] left
  | rejected (left : VariableCreationRequest) (c : Creation) (cs : List Creation)
      (after : VariableCreationRequest) :
      Served block left (c :: cs) [⟨c.requestOver block left, false, after⟩] after
  | accepted (left : VariableCreationRequest) (c : Creation) (cs : List Creation)
      (after last : VariableCreationRequest) (calls : List CreateCall)
      (more : Served block .cleared cs calls last) :
      Served block left (c :: cs) (⟨c.requestOver block left, true, after⟩ :: calls) last

theorem Served.length_le {block : UInt8} {left last : VariableCreationRequest}
    {cs : List Creation} {calls : List CreateCall} (h : Served block left cs calls last) :
    calls.length ≤ cs.length := by
  induction h with
  | done => simp
  | rejected => simp
  | accepted _ _ _ _ _ _ _ ih => simpa using ih

/-- Behind a variable that was made, every request depends on its instruction only. -/
theorem Served.of_cleared {block : UInt8} {left last : VariableCreationRequest}
    {cs : List Creation} {calls : List CreateCall} (h : Served block left cs calls last)
    (hfirst : ∀ c ∈ cs.head?, c.requestOver block left = c.request block) :
    List.Forall₂ (fun (c : Creation) call => call.handed = c.request block)
      (cs.take calls.length) calls := by
  induction h with
  | done => exact .nil
  | rejected left c cs after => exact .cons (hfirst c rfl) .nil
  | accepted left c cs after last calls _ ih =>
    exact .cons (hfirst c rfl) (ih fun c _ => rfl)

/-- The requests are those of their instructions if the first one is. -/
theorem Served.independent_iff {block : UInt8} {left last : VariableCreationRequest}
    {cs : List Creation} {calls : List CreateCall} (h : Served block left cs calls last) :
    List.Forall₂ (fun (c : Creation) call => call.handed = c.request block)
      (cs.take calls.length) calls ↔ ∀ c ∈ cs.head?, c.Unaffected left := by
  constructor
  · intro hall c hc
    rw [← c.requestOver_eq_iff block]
    cases h with
    | done => cases hc
    | rejected => cases hc; cases hall; assumption
    | accepted => cases hc; cases hall; assumption
  · intro hfirst
    exact h.of_cleared fun c hc => (c.requestOver_eq_iff block left).mpr (hfirst c hc)

/-- What the member holds after the calls of a log. -/
def heldAfter (log : List CreateCall) : VariableCreationRequest :=
  match log.getLast? with
  | none => .cleared
  | some call => if call.accepted then .cleared else call.left

theorem Served.heldAfter {block : UInt8} {left last : VariableCreationRequest}
    {cs : List Creation} {calls log : List CreateCall} (h : Served block left cs calls last)
    (hlog : heldAfter log = left) : heldAfter (log ++ calls) = last := by
  induction h generalizing log with
  | done => simpa using hlog
  | rejected => simp [Logic.heldAfter]
  | accepted left c cs after last calls _ ih =>
    rw [List.append_cons]
    exact ih (by simp [Logic.heldAfter])

/-! ### The preamble runs -/

section

variable {W H : Type} {f : VariableFactory W H} {vm vm' : VM (W × List CreateCall) H}

/-- `LOAD_STRING` keeps all that the next request is made of, but for the name. -/
theorem step_loadString_logged {text tail : Bytes}
    (hrest : vm.rest = Item.bytes (.loadString text) ++ tail) (hshort : vm.code.length < 2 ^ 16) :
    ∃ vm' : VM (W × List CreateCall) H, VM.step f.logged vm = .inl vm' ∧ vm'.rest = tail ∧
      vm'.code = vm.code ∧ vm'.blockNum = vm.blockNum ∧ vm'.world = vm.world ∧
      ∀ numStates, vm'.creationRequest numStates =
        Creation.requestOver ⟨text, numStates⟩ vm.blockNum vm.variableRequest := by
  refine ⟨_, VM.step_loadString hrest hshort, ?_, rfl, rfl, rfl, fun _ => rfl⟩
  have hlen : (Item.bytes (.loadString text)).length = 1 + (appendString text).length := by
    simp [Item.bytes, Nat.add_comm]
  rw [← hlen]
  exact VM.rest_advance hrest

/-- One `CREATE_VAR`, with the call that it logs. -/
theorem step_createVar_logged {guid numStates : Int} {tail : Bytes}
    (hrest : vm.rest = Item.bytes (.createVar guid numStates) ++ tail) :
    ∃ after, (∃ vm' : VM (W × List CreateCall) H,
        VM.step f.logged vm = .inr (.exception, vm') ∧ vm'.variableRequest = after ∧
          vm'.world.2 = vm.world.2 ++ [⟨vm.creationRequest (.ofInt numStates), false, after⟩]) ∨
      ∃ vm' : VM (W × List CreateCall) H, VM.step f.logged vm = .inl vm' ∧
        vm'.variableRequest = .cleared ∧ vm'.blockNum = vm.blockNum ∧ vm'.code = vm.code ∧
        vm'.rest = tail ∧
        vm'.world.2 = vm.world.2 ++ [⟨vm.creationRequest (.ofInt numStates), true, after⟩] := by
  rcases hmade : f.createVariable vm.world.1 (vm.creationRequest (.ofInt numStates)) with
    ⟨made, after, w⟩
  have hlogged : f.logged.createVariable vm.world (vm.creationRequest (.ofInt numStates)) =
      (made, after, w,
        vm.world.2 ++ [⟨vm.creationRequest (.ofInt numStates), made.isSome, after⟩]) := by
    simp only [VariableFactory.logged, hmade]
  rw [VM.step_createVar_eq hrest, hlogged]
  refine ⟨after, ?_⟩
  cases made with
  | none => exact .inl ⟨_, rfl, rfl, rfl⟩
  | some handle => exact .inr ⟨_, rfl, rfl, rfl, rfl, VM.rest_advance hrest, rfl⟩

theorem Command.preamble_cases (c : Command) :
    (c.emitPreamble = [] ∧ c.creations = []) ∨ ∃ (name : Bytes) (guid numStates : Int),
      c.emitPreamble = [.loadString name, .createVar guid numStates] ∧
        c.creations = [⟨name, .ofInt numStates⟩] := by
  cases c with
  | indirectVarCreate name _ guid type numStates => exact .inr ⟨name, guid, _, rfl, rfl⟩
  | _ => exact .inl ⟨rfl, rfl⟩

-- Induction on the commands: a round of `LOAD_STRING` and one of `CREATE_VAR` for a declaration,
-- and nothing for any other command.
theorem run_preamble (vm : VM (W × List CreateCall) H) (commands : List Command) {tail : Bytes}
    (fuel : Nat)
    (hrest : vm.rest = itemBytes (commands.flatMap Command.emitPreamble) ++
      OpCode.terminate.toByte :: tail)
    (hshort : vm.code.length < 2 ^ 16)
    (hfuel : (itemBytes (commands.flatMap Command.emitPreamble)).length < fuel) :
    ∃ r calls, Run.run (VM.step f.logged) fuel vm = some r ∧
      r.2.world.2 = vm.world.2 ++ calls ∧
      Served vm.blockNum vm.variableRequest (commands.flatMap Command.creations) calls
        r.2.variableRequest := by
  induction commands generalizing vm fuel with
  | nil =>
    obtain ⟨fuel, rfl⟩ := Nat.exists_eq_add_of_lt hfuel
    have hrun : Run.run (VM.step f.logged) (0 + fuel + 1) vm = some (.success, vm.advance 1) := by
      have hstep : VM.step f.logged vm = .inr (.success, vm.advance 1) := VM.step_of_rest hrest
      rw [Run.run, hstep]
    exact ⟨_, [], hrun, by simp [VM.advance], .done _⟩
  | cons c cs ih =>
    rcases c.preamble_cases with ⟨hitems, hcreations⟩ | ⟨name, guid, numStates, hitems, hcreations⟩
    · rw [List.flatMap_cons, hitems, List.nil_append] at hrest hfuel
      rw [List.flatMap_cons, hcreations, List.nil_append]
      exact ih vm fuel hrest hshort hfuel
    · rw [List.flatMap_cons, hitems] at hrest hfuel
      rw [List.flatMap_cons, hcreations, List.singleton_append]
      simp only [List.cons_append, List.nil_append, itemBytes_cons, List.length_append]
        at hrest hfuel
      have hbytes : 0 < (Item.bytes (.loadString name)).length ∧
          0 < (Item.bytes (.createVar guid numStates)).length := by
        constructor <;> simp only [Item.bytes, opArg, List.length_append, List.length_cons] <;>
          omega
      obtain ⟨fuel, rfl⟩ : ∃ n, fuel = n + 2 := ⟨fuel - 2, by omega⟩
      rw [List.append_assoc, List.append_assoc] at hrest
      obtain ⟨vm1, hload, hrest1, hcode1, hblock1, hworld1, hrequest⟩ :=
        step_loadString_logged (f := f) hrest hshort
      obtain ⟨after, hcreate⟩ := step_createVar_logged (f := f) hrest1
      rw [hrequest, hworld1] at hcreate
      rcases hcreate with ⟨vm2, hstep, rfl, hlog⟩ |
        ⟨vm2, hstep, hheld, hblock2, hcode2, hrest2, hlog⟩
      · have hrun : Run.run (VM.step f.logged) (fuel + 2) vm = some (.exception, vm2) := by
          simp only [Run.run, hload, hstep]
        exact ⟨_, _, hrun, hlog, .rejected _ _ _ _⟩
      · obtain ⟨r, calls, hrun, hlog', hserved⟩ :=
          ih vm2 fuel hrest2 (by rw [hcode2, hcode1]; exact hshort) (show _ < fuel by omega)
        rw [hlog, List.append_assoc] at hlog'
        rw [hheld, hblock2, hblock1] at hserved
        refine ⟨r, _, ?_, hlog', .accepted _ _ _ _ _ _ hserved⟩
        simp only [Run.run, hload, hstep, hrun]

theorem run_program {commands : List Command} {tail : Bytes} {fuel : Nat}
    (hrest : vm.rest = itemBytes (preambleItems commands) ++ tail)
    (hshort : vm.code.length < 2 ^ 16) (hpreamble : vm.isPreamble = true)
    (hfuel : vm.code.length < fuel) :
    ∃ r calls, Run.run (VM.step f.logged) fuel vm = some r ∧
      r.2.world.2 = vm.world.2 ++ calls ∧
      Served vm.blockNum vm.variableRequest (commands.flatMap Command.creations) calls
        r.2.variableRequest := by
  obtain ⟨vm', hrun', hrest', hcode, hblock, hrequest, hworld⟩ :=
    VM.run_ifPreamble f.logged hrest hshort hpreamble
  have hlen := congrArg List.length hrest'
  simp only [VM.length_rest, List.length_append, List.length_cons, hcode] at hlen
  have hroom := VM.two_le_of_preamble hrest
  obtain ⟨fuel, rfl⟩ : ∃ n, fuel = n + 2 := ⟨fuel - 2, by omega⟩
  rw [← hcode] at hshort
  obtain ⟨r, calls, hrun, hlog, hserved⟩ :=
    run_preamble (f := f) vm' commands fuel hrest' hshort (by omega)
  rw [hworld] at hlog
  rw [hblock, hrequest] at hserved
  exact ⟨r, calls, by rw [hrun', hrun], hlog, hserved⟩

theorem LogicBlock.creations_of_program {lb : LogicBlock} {block : UInt8} {commands : List Command}
    {d : Driver} (hparse : lb.parse block = some (commands, d)) (henabled : lb.enabled = true) :
    lb.creations block = commands.flatMap Command.creations := by
  rw [creations, hparse]
  exact if_pos henabled

theorem compileBlock_program {block : UInt8} {lb : LogicBlock} {commands : List Command}
    {d : Driver} (hparse : lb.parse block = some (commands, d)) (henabled : lb.enabled = true)
    {loaded : VM (W × List CreateCall) H}
    (hload : vm.clear.setBlockCode block (d.serialize commands).1 = some loaded) :
    ∃ vm' calls, compileBlock f.logged vm block lb = some vm' ∧
      vm'.world.2 = vm.world.2 ++ calls ∧
      Served block vm.variableRequest (lb.creations block) calls vm'.variableRequest := by
  obtain ⟨hlen, hblock, hcode, hloaded⟩ := VM.setBlockCode_eq_some hload
  have hheld : loaded.variableRequest = vm.variableRequest ∧ loaded.world = vm.world := by
    rw [hloaded]
    exact vm.clear_fields
  obtain ⟨vm1, henter, hcode1, hip, hpreamble, hnum, hheld1, hworld1⟩ :=
    loaded.enterPreamble hblock
  rw [hcode] at hcode1
  have hrest1 : vm1.rest = itemBytes (preambleItems commands) ++
      itemBytes (Command.emitAll true d (itemBytes (preambleItems commands)).length
        commands).items := by
    rw [VM.rest, hcode1, hip, List.drop_zero, Driver.serialize_eq_emit, Driver.emit,
      itemBytes_append]
  obtain ⟨r, calls, hrun, hlog, hserved⟩ := run_program (f := f) hrest1
    (by rw [hcode1]; exact hlen) hpreamble (Nat.lt_succ_self _)
  rw [hworld1, hheld.2] at hlog
  rw [hnum, hheld1, hheld.1, ← LogicBlock.creations_of_program hparse henabled] at hserved
  refine ⟨r.2, calls, ?_, hlog, hserved⟩
  rw [hcode1] at hrun
  simp only [compileBlock, hparse, henabled, if_true, runPreamble, hload, Option.bind_eq_bind,
    Option.bind_some, VM.executeBlock, henter, hrun, Option.map_some]

/-- A compilation serves the `CREATE_VAR` of its preamble. -/
theorem compileBlock_served {block : UInt8} {lb : LogicBlock}
    (h : compileBlock f.logged vm block lb = some vm') :
    ∃ calls, vm'.world.2 = vm.world.2 ++ calls ∧
      Served block vm.variableRequest (lb.creations block) calls vm'.variableRequest := by
  cases hparse : lb.parse block with
  | none =>
    simp only [compileBlock, hparse, Option.some.injEq] at h
    have hfields := vm.clearBlockCode_fields block
    rw [h] at hfields
    rw [LogicBlock.creations, hparse, hfields.1, hfields.2]
    exact ⟨[], (List.append_nil _).symm, .done _⟩
  | some program =>
    obtain ⟨commands, d⟩ := program
    by_cases henabled : lb.enabled = true
    · have hload : ∃ loaded,
          vm.clear.setBlockCode block (d.serialize commands).1 = some loaded := by
        simp only [compileBlock, hparse, henabled, if_true, Option.map_eq_some_iff] at h
        obtain ⟨r, hr, -⟩ := h
        obtain ⟨loaded, hload, -⟩ := Option.bind_eq_some_iff.mp hr
        exact ⟨loaded, hload⟩
      obtain ⟨loaded, hload⟩ := hload
      obtain ⟨vm'', calls, hcompile, hserved⟩ :=
        compileBlock_program (f := f) hparse henabled hload
      obtain rfl : vm' = vm'' := Option.some.inj (h.symm.trans hcompile)
      exact ⟨calls, hserved⟩
    · rw [Bool.not_eq_true] at henabled
      simp only [compileBlock, hparse, henabled, Bool.false_eq_true, if_false,
        Option.some.injEq] at h
      obtain ⟨-, -, hrequest, hworld⟩ := vm.dropBlock_fields block
      generalize vm.dropBlock block = dropped at h hrequest hworld
      have hfields := dropped.clearBlockCode_fields block
      rw [h, hrequest, hworld] at hfields
      have hnone : lb.creations block = [] := by
        simp only [LogicBlock.creations, hparse, henabled, Bool.false_eq_true, if_false]
      rw [hnone, hfields.1, hfields.2]
      exact ⟨[], (List.append_nil _).symm, .done _⟩

/-- Every block whose code fits is compiled to the end. -/
theorem compileBlock_isSome (vm : VM (W × List CreateCall) H) (block : UInt8) (lb : LogicBlock)
    (hfits : ∀ commands d, lb.parse block = some (commands, d) →
      (d.serialize commands).1.length < 2 ^ 16) :
    (compileBlock f.logged vm block lb).isSome := by
  cases hparse : lb.parse block with
  | none => simp [compileBlock, hparse]
  | some program =>
    obtain ⟨commands, d⟩ := program
    by_cases henabled : lb.enabled = true
    · obtain ⟨loaded, hload⟩ := VM.setBlockCode_isSome vm.clear block (hfits commands d hparse)
      obtain ⟨vm', _, hcompile, -⟩ := compileBlock_program (f := f) hparse henabled hload
      rw [hcompile]
      rfl
    · simp [compileBlock, hparse, henabled]

end

/-! ### Runs -/

section

variable {W H : Type}

/-- The runner compiles the blocks in any order, again and again. -/
def compileStep (f : VariableFactory W H) (vm : VM (W × List CreateCall) H)
    (i : UInt8 × LogicBlock) : Option (VM (W × List CreateCall) H) :=
  compileBlock f.logged vm i.1 i.2

/-- The requests of this compilation depend on their instructions only. -/
def RequestsIndependent (before : VM (W × List CreateCall) H) (i : UInt8 × LogicBlock)
    (after : VM (W × List CreateCall) H) : Prop :=
  ∃ calls, after.world.2 = before.world.2 ++ calls ∧
    List.Forall₂ (fun (c : Creation) call => call.handed = c.request i.1)
      ((i.2.creations i.1).take calls.length) calls

/-- The last call so far made its variable, or it left the request in a state that the first
`CREATE_VAR` of this compilation, if there is one, does not show. -/
def NothingLeft (log : List CreateCall) (i : UInt8 × LogicBlock) : Prop :=
  ∀ call ∈ log.getLast?, call.accepted = false →
    ∀ c ∈ (i.2.creations i.1).head?, c.Unaffected call.left

theorem nothingLeft_iff (log : List CreateCall) (i : UInt8 × LogicBlock) :
    NothingLeft log i ↔ ∀ c ∈ (i.2.creations i.1).head?, c.Unaffected (heldAfter log) := by
  have hcleared (c : Creation) : c.Unaffected .cleared := ⟨rfl, rfl, fun _ => ⟨rfl, rfl⟩⟩
  unfold NothingLeft heldAfter
  cases log.getLast? with
  | none => simp [hcleared]
  | some call => cases haccepted : call.accepted <;> simp [haccepted, hcleared]

/-- What the member holds is told by the log. -/
theorem run_heldAfter {f : VariableFactory W H} {world : W} {vm : VM (W × List CreateCall) H}
    {history : List (UInt8 × LogicBlock)}
    (h : Trace.run (compileStep f) (VM.fresh (world, [])) history = some vm) :
    heldAfter vm.world.2 = vm.variableRequest := by
  refine Trace.invariant_of_step
    (I := fun _ (vm : VM (W × List CreateCall) H) => heldAfter vm.world.2 = vm.variableRequest)
    rfl ?_ h
  intro past i vm vm' hheld hstep
  obtain ⟨calls, hlog, hserved⟩ := compileBlock_served hstep
  rw [hlog]
  exact hserved.heldAfter hheld

/-- In a run of compilations, each of them hands the factory requests that depend on their
instructions only, if and only if none starts with something left of a request that was rejected. -/
theorem requests_independent_iff (f : VariableFactory W H) (world : W)
    (history : List (UInt8 × LogicBlock)) :
    Trace.EachStep (compileStep f) (fun _ vm i vm' => RequestsIndependent vm i vm')
        (VM.fresh (world, [])) history ↔
      Trace.EachStep (compileStep f) (fun _ vm i _ => NothingLeft vm.world.2 i)
        (VM.fresh (world, [])) history := by
  have hstep (past : List (UInt8 × LogicBlock)) (i : UInt8 × LogicBlock)
      (vm vm' : VM (W × List CreateCall) H)
      (hrun : Trace.run (compileStep f) (VM.fresh (world, [])) past = some vm)
      (hcompile : compileStep f vm i = some vm') :
      RequestsIndependent vm i vm' ↔ NothingLeft vm.world.2 i := by
    obtain ⟨calls, hlog, hserved⟩ := compileBlock_served hcompile
    rw [nothingLeft_iff, run_heldAfter hrun, ← hserved.independent_iff]
    constructor
    · rintro ⟨calls', hlog', hall⟩
      obtain rfl := List.append_cancel_left (hlog.symm.trans hlog')
      exact hall
    · exact fun hall => ⟨calls, hlog, hall⟩
  constructor
  · intro h past i future vm vm' heq hrun hcompile
    exact (hstep past i vm vm' hrun hcompile).mp (h past i future vm vm' heq hrun hcompile)
  · intro h past i future vm vm' heq hrun hcompile
    exact (hstep past i vm vm' hrun hcompile).mpr (h past i future vm vm' heq hrun hcompile)

end

/-! ### A request that was rejected -/

/-- `OlcbVariableFactory` makes boolean variables only. -/
def VariableFactory.boolOnly : VariableFactory Unit Unit where
  createVariable _ request := (if request.type = .bool then some () else none, request, ())
  read _ _ _ := (0, false, ())
  write _ _ _ _ := (false, ())

/-- `exported int count max_state(3);` -/
def exportedInt : LogicBlock where
  source := some [.variableDecl .indirectVar .int ⟨"count", [.maxState 3], .none⟩ [] true]
  enabled := true

/-- `exported bool light;` -/
def exportedBool : LogicBlock where
  source := some [.variableDecl .indirectVar .bool ⟨"light", [], .none⟩ [] true]
  enabled := true

def rejectedThenBool : List (UInt8 × LogicBlock) := [(0, exportedInt), (1, exportedBool)]

/-- The boolean variable of the second block is asked for as one of four states. -/
theorem rejectedThenBool_leaks :
    ¬Trace.EachStep (compileStep .boolOnly) (fun _ vm i vm' => RequestsIndependent vm i vm')
      (VM.fresh ((), [])) rejectedThenBool := by
  let logAfter (history : List (UInt8 × LogicBlock)) : Option (List CreateCall) :=
    (Trace.run (compileStep .boolOnly) (VM.fresh ((), [])) history).map fun vm => vm.world.2
  let count : VariableCreationRequest :=
    { VariableCreationRequest.cleared with
      name := textBytes "count", blockNum := 0, type := .int, numStates := 4 }
  let light : VariableCreationRequest := { count with name := textBytes "light", blockNum := 1 }
  have hfirst : logAfter [(0, exportedInt)] = some [⟨count, false, count⟩] := by decide
  have hsecond : logAfter [(0, exportedInt), (1, exportedBool)] =
      some [⟨count, false, count⟩, ⟨light, false, light⟩] := by decide
  have hcreations : exportedBool.creations 1 = [⟨textBytes "light", -1⟩] := by decide
  obtain ⟨vm, hrun, hlog⟩ := Option.map_eq_some_iff.mp hfirst
  obtain ⟨vm', hrun', hlog'⟩ := Option.map_eq_some_iff.mp hsecond
  have hrun' : Trace.run (compileStep .boolOnly) (VM.fresh ((), []))
      ([(0, exportedInt)] ++ [(1, exportedBool)]) = some vm' := hrun'
  obtain ⟨vm1, hvm1, hcompile⟩ := Trace.run_concat_eq_some.mp hrun'
  obtain rfl : vm = vm1 := Option.some.inj (hrun.symm.trans hvm1)
  intro h
  obtain ⟨calls, hcalls, hall⟩ := h [(0, exportedInt)] _ [] vm vm' rfl hrun hcompile
  rw [hlog, hlog'] at hcalls
  obtain rfl : calls = [⟨light, false, light⟩] := (List.cons.inj hcalls).2.symm
  rw [show (1, exportedBool).2.creations (1, exportedBool).1 = _ from hcreations] at hall
  have hlight : light = Creation.request ⟨textBytes "light", -1⟩ 1 := by
    cases hall
    assumption
  exact absurd hlight (by decide)

end OpenmrnCue.Logic
