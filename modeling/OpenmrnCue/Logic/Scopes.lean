import OpenmrnCue.Library.SlotTable
import OpenmrnCue.Logic.Static

/-! Variables in scope.  All variables of a context share one flat table, and the closing brace of a
block takes those out again that `trim_stack` selects by their offsets.  Its comment says "all
entries from the symbol table whose fp offsets is >= new_size"; the comparison of the code goes the
other way. -/

namespace OpenmrnCue.Logic

/-- The type and the offset of a variable. -/
def Symbol.slot (s : Symbol) : Option (DataType × Int) :=
  match s.symbolType with
  | .variable => some (s.dataType, s.fpOffset)
  | .function => none

theorem Symbol.slot_ofs {s : Symbol} {x : DataType × Int} (h : s.slot = some x) :
    x.2 = s.fpOffset := by
  unfold slot at h
  split at h <;> cases h
  rfl

/-- The variables that the names can stand for, with their types and offsets. -/
def Driver.visible (d : Driver) : SlotTable String DataType :=
  fun name => (d.findSymbol name).bind Symbol.slot

/-! ### The table of the variables -/

def ParsingContext.varTable (c : ParsingContext) : SlotTable String DataType :=
  fun name => (c.symbolTable name).bind Symbol.slot

theorem ParsingContext.varTable_update (c : ParsingContext) (name : String) (s : Symbol) :
    { c with symbolTable := Function.update c.symbolTable name (some s) }.varTable =
      Function.update c.varTable name s.slot := by
  funext other
  by_cases hother : other = name
  · subst hother
    simp [varTable]
  · simp [varTable, Function.update_of_ne hother]

namespace Driver

variable (d : Driver)

/-- What a function sees of the global context are no variables. -/
theorem visible_eq : d.visible = d.currentContext.varTable := by
  funext name
  unfold visible findSymbol ParsingContext.varTable
  cases d.currentContext.symbolTable name with
  | some s => rfl
  | none =>
    simp only
    split
    · rfl
    · cases d.globalContext.symbolTable name with
      | none => rfl
      | some s => cases htype : s.symbolType <;> simp [Option.filter, Symbol.slot, htype]

@[simp] theorem visible_setFrameSize (n : Nat) : (d.setFrameSize n).visible = d.visible := by
  rw [visible_eq, visible_eq, setFrameSize, currentContext_setContext]
  rfl

@[simp] theorem visible_allocateGuid : d.allocateGuid.2.visible = d.visible := rfl

theorem visible_setSymbol (name : String) (s : Symbol) :
    (d.setSymbol name s).visible = Function.update d.visible name s.slot := by
  rw [visible_eq, visible_eq, setSymbol, currentContext_setContext, ParsingContext.varTable_update]

theorem visible_trimStack (n : Nat) : (d.trimStack n).visible =
    d.visible.remove fun ofs => decide (0 ≤ ofs) && decide (ofs ≤ n) := by
  rw [visible_eq, visible_eq, trimStack, currentContext_setContext]
  funext name
  simp only [ParsingContext.varTable, SlotTable.remove]
  cases d.currentContext.symbolTable name with
  | none => rfl
  | some s =>
    cases hout : decide (0 ≤ s.fpOffset) && decide (s.fpOffset ≤ n)
    · simp only [Option.filter, hout, Option.bind, Bool.not_false, if_true]
      cases hslot : s.slot with
      | none => rfl
      | some x => simp [Symbol.slot_ofs hslot, hout]
    · simp only [Option.filter, hout, Option.bind, Bool.not_true, Bool.false_eq_true, if_false]
      cases hslot : s.slot with
      | none => rfl
      | some x => simp [Symbol.slot_ofs hslot, hout]

theorem visible_modifySymbol (name : String) (formals : List FunctionArgument) :
    (d.modifySymbol name fun s => { s with args := some formals }).visible = d.visible := by
  unfold modifySymbol
  split
  · next s hs =>
    rw [visible_setSymbol]
    refine Function.update_eq_self_iff.mpr ?_
    rw [visible_eq, ParsingContext.varTable, hs]
    rfl
  · split
    · rfl
    · next s hs =>
      rw [visible_eq, visible_eq]
      cases hin : d.inFunction with
      | true => simp [currentContext, hin]
      | false =>
        simp only [findSymbol, isGlobalContext, hin] at hs
        split at hs <;> simp_all

/-- A new variable is in the next slot. -/
theorem visible_allocateVariable {d d' : Driver} {name : String} {type : DataType}
    {access : Access} {s : Symbol} (h : d.allocateVariable name type access = .ok (s, d')) :
    d.visible name = none ∧ d'.visible =
      Function.update d.visible name (some (type, (d.currentContext.frameSize : Int))) := by
  obtain ⟨hnone, rfl, rfl⟩ := allocateVariable_eq_ok h
  refine ⟨?_, ?_⟩
  · rw [visible_eq, ParsingContext.varTable, hnone]
    rfl
  · rw [visible_setFrameSize, visible_setSymbol]
    rfl

end Driver

/-! ### Frames that are filled -/

/-- The slots of the current frame are `n`, and the variables in scope fill them. -/
structure Framed (d : Driver) (n : Nat) : Prop where
  filled : d.visible.Filled n
  frameSize : d.currentContext.frameSize = n

/-- A part of a program declares variables in the slots from `n` to `m`. -/
structure Grows (d : Driver) (n : Nat) (d' : Driver) (m : Nat) : Prop where
  le : n ≤ m
  extension : d.visible.Extends n d'.visible
  framed : Framed d' m

theorem Grows.refl {d : Driver} {n : Nat} (h : Framed d n) : Grows d n d n :=
  ⟨Nat.le_refl n, .refl _ _, h⟩

theorem Grows.trans {d d1 d2 : Driver} {n n1 n2 : Nat} (h : Grows d n d1 n1)
    (h' : Grows d1 n1 d2 n2) : Grows d n d2 n2 :=
  ⟨Nat.le_trans h.le h'.le, h.extension.trans h'.extension h.le, h'.framed⟩

section

variable {d d' : Driver} {n : Nat}

theorem Framed.allocateVariable (hd : Framed d n) {name : String} {type : DataType}
    {access : Access} {s : Symbol} (h : d.allocateVariable name type access = .ok (s, d')) :
    Grows d n d' (n + 1) := by
  obtain ⟨hnone, hvisible⟩ := Driver.visible_allocateVariable h
  obtain ⟨-, hframe⟩ := Driver.frameSize_allocateVariable h
  rw [hd.frameSize] at hvisible hframe
  refine ⟨Nat.le_succ n, ?_, ?_, hframe⟩
  · rw [hvisible]
    exact .declare hnone type
  · rw [hvisible]
    exact hd.filled.declare hnone type

theorem Framed.allocateGuid (hd : Framed d n) : Framed d.allocateGuid.2 n :=
  ⟨hd.filled, hd.frameSize⟩

theorem Declarator.build_grows (hd : Framed d n) {storage : Access} {type : DataType}
    {v : Declarator} {c : Command} (h : v.build storage type d = .ok (c, d')) :
    Grows d n d' (n + 1) := by
  simp only [Declarator.build, Except.bind_eq_ok] at h
  obtain ⟨_, _, ⟨declName, numStates⟩, _, init, hinit, h⟩ := h
  obtain ⟨-, h⟩ := Except.guard_eq_ok.mp h
  obtain ⟨access, s, d1, hd1, hcase⟩ := Driver.declareVariable_eq_ok h
  have hgrows := hd.allocateVariable hd1
  rcases hcase with ⟨-, rfl, -⟩ | ⟨-, rfl, -⟩ | ⟨-, rfl, -⟩
  · exact ⟨hgrows.le, hgrows.extension, hgrows.framed.allocateGuid⟩
  · exact ⟨hgrows.le, hgrows.extension, hgrows.framed.allocateGuid⟩
  · exact hgrows

theorem Declarator.buildAll_grows {storage : Access} {type : DataType} :
    (vs : List Declarator) → ∀ {d d' : Driver} {n : Nat} {cs : List Command}, Framed d n →
    Declarator.buildAll storage type d vs = .ok (cs, d') → Grows d n d' (n + vs.length)
  | [], _, _, _, _, hd, h => by
    cases h
    exact .refl hd
  | v :: vs, d, d', n, cs, hd, h => by
    simp only [Declarator.buildAll, Except.bind_eq_ok, Except.pure_eq_ok] at h
    obtain ⟨⟨c, d1⟩, hc, ⟨cs', d2⟩, hcs, h⟩ := h
    cases h
    have hgrows := Declarator.build_grows hd hc
    have hrest := Declarator.buildAll_grows vs hgrows.framed hcs
    rw [Nat.add_right_comm] at hrest
    exact hgrows.trans hrest

theorem ArgumentTree.buildAll_grows : (ts : List ArgumentTree) → ∀ {d d' : Driver} {n : Nat}
    {formals : List FunctionArgument}, Framed d n →
    ArgumentTree.buildAll d ts = .ok (formals, d') → Grows d n d' (n + ts.length)
  | [], _, _, _, _, hd, h => by
    cases h
    exact .refl hd
  | t :: ts, d, d', n, formals, hd, h => by
    simp only [ArgumentTree.buildAll, Except.bind_eq_ok, Except.pure_eq_ok] at h
    obtain ⟨_, _, ⟨s, d1⟩, hd1, ⟨formals', d2⟩, hformals, h⟩ := h
    cases h
    have hgrows := hd.allocateVariable hd1
    have hrest := ArgumentTree.buildAll_grows ts hgrows.framed hformals
    rw [Nat.add_right_comm] at hrest
    exact hgrows.trans hrest

theorem Driver.globalVarTable_modifySymbol (hin : d.inFunction = true) (name : String)
    (formals : List FunctionArgument) :
    (d.modifySymbol name fun s => { s with args := some formals }).globalContext.varTable =
      d.globalContext.varTable := by
  cases hlocal : d.currentContext.symbolTable name with
  | some s =>
    simp only [modifySymbol, hlocal]
    rw [setSymbol, (d.stays_setContext _).global hin]
  | none =>
    simp only [modifySymbol, hlocal]
    split
    · rfl
    · next s hs =>
      rw [ParsingContext.varTable_update]
      refine Function.update_eq_self_iff.mpr ?_
      rw [ParsingContext.varTable, globalContext_of_findSymbol hlocal hs]
      rfl

/-- An empty frame, with the return value below it. -/
theorem framed_entered (d : Driver) (type : DataType) (name : String) :
    Framed (d.entered type name) 0 := by
  refine ⟨⟨?_, fun i hi => absurd hi (Nat.not_lt_zero i)⟩, rfl⟩
  intro other type' ofs hother
  rw [Driver.entered, Driver.enterFunction, Driver.visible_setSymbol] at hother
  by_cases hname : other = "return_value"
  · subst hname
    rw [Function.update_self] at hother
    cases hother
    exact Int.negSucc_lt_zero 0
  · rw [Function.update_of_ne hname, Driver.visible_eq] at hother
    cases hother

theorem globalVarTable_entered (hin : d.inFunction = false) (type : DataType) {name : String}
    (hnew : d.globalContext.symbolTable name = none) :
    (d.entered type name).globalContext.varTable = d.globalContext.varTable := by
  have hglobal : (d.entered type name).globalContext = { d.globalContext with
      symbolTable := Function.update d.globalContext.symbolTable name
        (some { Symbol.fresh with symbolType := .function, dataType := type }) } := by
    simp [Driver.entered, Driver.enterFunction, Driver.setSymbol, Driver.setContext,
      Driver.currentContext, hin]
  rw [hglobal, ParsingContext.varTable_update]
  refine Function.update_eq_self_iff.mpr ?_
  rw [ParsingContext.varTable, hnew]
  rfl

/-- The arguments of a function fill its frame, and the variables outside are what they were. -/
theorem openFunction_framed {fns : List FunctionEntry} (hk : Knows d fns) {storage : Access}
    {type : DataType} {name : String} {args : List ArgumentTree} {formals : List FunctionArgument}
    (h : openFunction d storage type name args = .ok (formals, d')) :
    Framed d' args.length ∧ formals.length = args.length ∧
      d'.globalContext.varTable = d.globalContext.varTable := by
  obtain ⟨hin, hnew, d1, hargs, rfl⟩ := openFunction_cases h
  have hk1 : Knows (d.entered type name) (fns ++ [⟨name, formals, true⟩]) :=
    hk.enterFunction hin hnew type formals true
  obtain ⟨-, hst, hframe⟩ := ArgumentTree.buildAll_eq_ok args hk1 hargs
  have hgrows := ArgumentTree.buildAll_grows args (framed_entered d type name) hargs
  rw [Nat.zero_add] at hgrows
  have hd1 : d1.inFunction = true := hst.inFunction
  refine ⟨⟨?_, ?_⟩, ?_, ?_⟩
  · rw [Driver.visible_modifySymbol]
    exact hgrows.framed.filled
  · rw [Driver.frameSize_modifySymbol]
    exact hgrows.framed.frameSize
  · have hempty : (d.entered type name).currentContext.frameSize = 0 := rfl
    rw [hgrows.framed.frameSize, hempty, Nat.zero_add] at hframe
    exact hframe.symm
  · rw [Driver.globalVarTable_modifySymbol hd1, hst.global rfl,
      globalVarTable_entered hin type hnew]

/-! ### The closing brace -/

theorem visible_closeBrace (n : Nat) (cs : List Command) (d : Driver) :
    (closeBrace n cs d).2.visible =
      if d.currentContext.frameSize = n then d.visible
      else d.visible.remove fun ofs => decide (0 ≤ ofs) && decide (ofs ≤ n) := by
  unfold closeBrace
  by_cases hsame : d.currentContext.frameSize = n
  · rw [if_neg (not_not.mpr hsame), if_pos hsame]
  · rw [if_pos hsame, if_neg hsame, Driver.visible_setFrameSize, Driver.visible_trimStack]

/-- The closing brace restores the variables of the opening one if the block has none of its own, or
a single one in slot 0. -/
theorem Grows.closeBrace_iff {m : Nat} (hd : Framed d n) (h : Grows d n d' m) (cs : List Command) :
    (closeBrace n cs d').2.visible = d.visible ↔ m = n ∨ m = n + 1 ∧ n = 0 := by
  rw [visible_closeBrace, h.framed.frameSize]
  by_cases hsame : m = n
  · subst hsame
    rw [if_pos rfl]
    exact ⟨fun _ => .inl rfl, fun _ => h.extension.eq_of_filled h.framed.filled⟩
  · have hle := h.le
    rw [if_neg hsame, h.extension.remove_low_iff hd.filled h.framed.filled (by omega)]
    omega

/-- Then the frame is what it was, too. -/
theorem Framed.closeBrace (hd : Framed d n) (cs : List Command)
    (h : (Logic.closeBrace n cs d').2.visible = d.visible) :
    Grows d n (Logic.closeBrace n cs d').2 n := by
  refine ⟨Nat.le_refl n, ?_, ?_, frameSize_closeBrace n cs d'⟩
  · rw [h]
    exact .refl _ _
  · rw [h]
    exact hd.filled

end

end OpenmrnCue.Logic
