import OpenmrnCue.Logic.Scopes

/-! Lexical scoping: which programs find the same variables behind each block as before it, and
refer to live slots only. -/

namespace OpenmrnCue.Logic

/-! ### References -/

def VariableReference.fpOffset : VariableReference → Int
  | .localVar _ fpOffset => fpOffset
  | .globalVar _ fpOffset => fpOffset

mutual

/-- The variable references in an expression. -/
def IntExpression.references : IntExpression → List VariableReference
  | .intVariable v => [v]
  | .intConstant _ => []
  | .intBinaryExpression _ left right => left.references ++ right.references
  | .intFunctionCall call => call.references

def BooleanExpression.references : BooleanExpression → List VariableReference
  | .boolVariable v => [v]
  | .booleanConstant _ => []
  | .intComp _ left right => left.references ++ right.references
  | .boolNot left => left.references
  | .boolAnd left right => left.references ++ right.references
  | .boolCmp _ left right => left.references ++ right.references
  | .boolOr left right => left.references ++ right.references
  | .boolFunctionCall call => call.references

def PolymorphicExpression.references : PolymorphicExpression → List VariableReference
  | .boolExpr e => e.references
  | .intExpr e => e.references
  | .var _ v => [v]
  | .void => []

def PolymorphicExpression.referencesAll : List PolymorphicExpression → List VariableReference
  | [] => []
  | arg :: args => arg.references ++ PolymorphicExpression.referencesAll args

def FunctionCall.references : FunctionCall → List VariableReference
  | .mk _ _ args _ => PolymorphicExpression.referencesAll args

end

def Initializer.references : Initializer → List VariableReference
  | .int e => e.references
  | .bool e => e.references

mutual

/-- The slots of the frame that are live after a command, when `n` are live before it. -/
def Command.slots (n : Nat) : Command → Nat
  | .commandSequence commands _ trimStackTo =>
    if trimStackTo = -1 then Command.slotsAll n commands else trimStackTo.toNat
  | .indirectVarCreate .. | .staticVarCreate .. | .localVarCreate .. => n + 1
  | _ => n

def Command.slotsAll (n : Nat) : List Command → Nat
  | [] => n
  | c :: cs => Command.slotsAll (c.slots n) cs

end

mutual

/-- The variable references in a command, each with the number of slots that are live there. -/
def Command.references (n : Nat) : Command → List (VariableReference × Nat)
  | .empty | .printString _ | .terminate | .indirectVarCreate .. => []
  | .commandSequence commands _ _ => Command.referencesAll n commands
  | .staticVarCreate _ _ _ _ init => init.references.map (·, n)
  | .localVarCreate _ _ _ init => init.references.map (·, n)
  | .numericAssignment v value => (v :: value.references).map (·, n)
  | .booleanAssignment v value => (v :: value.references).map (·, n)
  | .ifThen condition thenCase => condition.references.map (·, n) ++ thenCase.references n
  | .ifThenElse condition thenCase elseCase =>
    condition.references.map (·, n) ++ thenCase.references n ++ elseCase.references n
  | .function _ _ args body => Command.referencesAll args.length body
  | .functionCall call => call.references.map (·, n)
  | .printInt value => value.references.map (·, n)

def Command.referencesAll (n : Nat) : List Command → List (VariableReference × Nat)
  | [] => []
  | c :: cs => c.references n ++ Command.referencesAll (c.slots n) cs

end

/-! ### Blocks -/

/-- The variables that a command declares outside of its braces. -/
def CommandTree.declared : CommandTree → Nat
  | .variableDecl _ _ _ more _ => more.length + 1
  | _ => 0

def CommandTree.declaredAll (ts : List CommandTree) : Nat := (ts.map CommandTree.declared).sum

/-- A braced block of a program: the variables that are declared in the same frame before it and
around it, its commands, and the driver at its two braces. -/
structure BracedBlock where
  slots : Nat
  commands : List CommandTree
  opening : Driver
  closing : Driver

/-- The same variables behind the closing brace as before the opening one. -/
def BracedBlock.Restores (b : BracedBlock) : Prop := b.closing.visible = b.opening.visible

/-- No variables of its own, or a single one in slot 0. -/
def BracedBlock.Fits (b : BracedBlock) : Prop :=
  CommandTree.declaredAll b.commands = 0 ∨
    CommandTree.declaredAll b.commands = 1 ∧ b.slots = 0

/-- The block of `commands`, unless the parser stops in front of its closing brace. -/
def closedBlock (n : Nat) (d : Driver) (commands : List CommandTree) : List BracedBlock :=
  match CommandTree.buildAll d commands with
  | .ok (cs, d') => [⟨n, commands, d, (closeBrace d.currentContext.frameSize cs d').2⟩]
  | .error _ => []

mutual

/-- The braced blocks that the parser closes in a command, from `n` live slots on. -/
def CommandTree.blocks (n : Nat) (d : Driver) : CommandTree → List BracedBlock
  | .braced commands => CommandTree.blocksAll n d commands ++ closedBlock n d commands
  | .ifThen condition thenCase =>
    match condition.build d with
    | .ok _ => CommandTree.blocksAll n d thenCase ++ closedBlock n d thenCase
    | .error _ => []
  | .ifThenElse condition thenCase elseCase =>
    match condition.build d with
    | .ok _ =>
      CommandTree.blocksAll n d thenCase ++
        match CommandTree.buildAll d thenCase with
        | .ok (cs, d') =>
          let d1 := (closeBrace d.currentContext.frameSize cs d').2
          closedBlock n d thenCase ++ if elseCase.isElseCase then elseCase.blocks n d1 else []
        | .error _ => []
    | .error _ => []
  | .function storage type name args body =>
    match openFunction d storage type name args with
    | .ok (_, d') => CommandTree.blocksAll args.length d' body
    | .error _ => []
  | _ => []

def CommandTree.blocksAll (n : Nat) (d : Driver) : List CommandTree → List BracedBlock
  | [] => []
  | t :: ts =>
    t.blocks n d ++
      match t.build d with
      | .ok (_, d') => CommandTree.blocksAll (n + t.declared) d' ts
      | .error _ => []

end

/-! ### What a reference refers to -/

/-- The reference is to a variable in scope. -/
def VariableReference.InScope (d : Driver) (v : VariableReference) : Prop :=
  ∃ name type, d.visible name = some (type, v.fpOffset)

theorem Framed.ofs_lt {d : Driver} {n : Nat} (hd : Framed d n) {v : VariableReference}
    (h : v.InScope d) : v.fpOffset < n := by
  obtain ⟨name, type, hname⟩ := h
  exact hd.filled.below hname

namespace Driver

variable {d : Driver}

/-- The token of a variable. -/
theorem visible_of_scanId {name : String} {token : IdToken} (h : d.scanId name = token)
    (htoken : token = .intVarId ∨ token = .boolVarId) :
    ∃ s, d.findSymbol name = some s ∧ d.visible name = some (s.dataType, s.fpOffset) := by
  unfold scanId at h
  unfold visible
  cases hs : d.findSymbol name with
  | none =>
    rw [hs] at h
    rcases htoken with rfl | rfl <;> cases h
  | some s =>
    refine ⟨s, rfl, ?_⟩
    simp only [hs] at h
    simp only [Option.bind_some, Symbol.slot]
    split
    · rfl
    · next htype =>
      rw [htype] at h
      cases hdata : s.dataType <;> rw [hdata] at h <;> rcases htoken with rfl | rfl <;> cases h

/-- A reference is to the variable of its name. -/
theorem getVariableReference_inScope {name : String} {token : IdToken} {u : Unit}
    {type : DataType} {v : VariableReference} (hscan : d.expect name token = .ok u)
    (htoken : token = .intVarId ∨ token = .boolVarId)
    (h : d.getVariableReference name type = .ok v) : v.InScope d := by
  obtain ⟨s, hs, hvisible⟩ := visible_of_scanId (expect_eq_ok hscan) htoken
  simp only [getVariableReference, getVariable, hs, Except.bind_eq_ok] at h
  obtain ⟨s', hs', h⟩ := h
  obtain ⟨-, hs'⟩ := Except.guard_eq_ok.mp hs'
  cases hs'
  refine ⟨name, s.dataType, ?_⟩
  split at h <;> cases h
  · exact hvisible
  · exact hvisible

end Driver

section

variable {d : Driver}

mutual

theorem ExpTree.build_inScope : (t : ExpTree) → ∀ {e : IntExpression}, t.build d = .ok e →
    ∀ v ∈ e.references, v.InScope d
  | .binary op left right, e, h => by
    simp only [ExpTree.build, Except.bind_eq_ok, Except.pure_eq_ok] at h
    obtain ⟨l, hl, r, hr, rfl⟩ := h
    exact List.forall_mem_append.mpr ⟨left.build_inScope hl, right.build_inScope hr⟩
  | .number n, e, h | .minusNumber n, e, h => by
    simp only [ExpTree.build, Except.pure_eq_ok] at h
    subst h
    exact fun v hv => absurd hv List.not_mem_nil
  | .intVar name, e, h => by
    simp only [ExpTree.build, Except.bind_eq_ok, Except.pure_eq_ok] at h
    obtain ⟨_, hscan, v, hv, rfl⟩ := h
    exact List.forall_mem_singleton.mpr
      (Driver.getVariableReference_inScope hscan (.inl rfl) hv)
  | .intFunction name args, e, h => by
    simp only [ExpTree.build, Except.bind_eq_ok, Except.pure_eq_ok] at h
    obtain ⟨_, _, as, has, call, hcall, rfl⟩ := h
    rw [Driver.functionCallExp_eq_ok hcall]
    exact PolyTree.buildAll_inScope args has

theorem BoolExpTree.build_inScope : (t : BoolExpTree) → ∀ {e : BooleanExpression},
    t.build d = .ok e → ∀ v ∈ e.references, v.InScope d
  | .constBool value, e, h => by
    simp only [BoolExpTree.build, Except.pure_eq_ok] at h
    subst h
    exact fun v hv => absurd hv List.not_mem_nil
  | .boolCmp op left right, e, h | .and left right, e, h | .or left right, e, h => by
    simp only [BoolExpTree.build, Except.bind_eq_ok, Except.pure_eq_ok] at h
    obtain ⟨l, hl, r, hr, rfl⟩ := h
    exact List.forall_mem_append.mpr ⟨left.build_inScope hl, right.build_inScope hr⟩
  | .intComp op left right, e, h => by
    simp only [BoolExpTree.build, Except.bind_eq_ok, Except.pure_eq_ok] at h
    obtain ⟨l, hl, r, hr, rfl⟩ := h
    exact List.forall_mem_append.mpr ⟨left.build_inScope hl, right.build_inScope hr⟩
  | .not t, e, h => by
    simp only [BoolExpTree.build, Except.bind_eq_ok, Except.pure_eq_ok] at h
    obtain ⟨l, hl, rfl⟩ := h
    have hrefs : ∀ v ∈ l.references, v.InScope d := t.build_inScope hl
    exact hrefs
  | .boolVar name, e, h => by
    simp only [BoolExpTree.build, Except.bind_eq_ok, Except.pure_eq_ok] at h
    obtain ⟨_, hscan, v, hv, rfl⟩ := h
    exact List.forall_mem_singleton.mpr
      (Driver.getVariableReference_inScope hscan (.inr rfl) hv)
  | .boolFunction name args, e, h => by
    simp only [BoolExpTree.build, Except.bind_eq_ok, Except.pure_eq_ok] at h
    obtain ⟨_, _, as, has, call, hcall, rfl⟩ := h
    rw [Driver.functionCallExp_eq_ok hcall]
    exact PolyTree.buildAll_inScope args has

theorem PolyTree.build_inScope : (t : PolyTree) → ∀ {e : PolymorphicExpression},
    t.build d = .ok e → ∀ v ∈ e.references, v.InScope d
  | .exp t, e, h => by
    simp only [PolyTree.build, Except.bind_eq_ok, Except.pure_eq_ok] at h
    obtain ⟨e', he, rfl⟩ := h
    exact t.build_inScope he
  | .boolexp t, e, h => by
    simp only [PolyTree.build, Except.bind_eq_ok, Except.pure_eq_ok] at h
    obtain ⟨e', he, rfl⟩ := h
    exact t.build_inScope he
  | .refInt name, e, h => by
    simp only [PolyTree.build, Except.bind_eq_ok, Except.pure_eq_ok] at h
    obtain ⟨_, hscan, v, hv, rfl⟩ := h
    exact List.forall_mem_singleton.mpr
      (Driver.getVariableReference_inScope hscan (.inl rfl) hv)
  | .refBool name, e, h => by
    simp only [PolyTree.build, Except.bind_eq_ok, Except.pure_eq_ok] at h
    obtain ⟨_, hscan, v, hv, rfl⟩ := h
    exact List.forall_mem_singleton.mpr
      (Driver.getVariableReference_inScope hscan (.inr rfl) hv)

theorem PolyTree.buildAll_inScope : (ts : List PolyTree) → ∀ {es : List PolymorphicExpression},
    PolyTree.buildAll d ts = .ok es →
    ∀ v ∈ PolymorphicExpression.referencesAll es, v.InScope d
  | [], es, h => by
    simp only [PolyTree.buildAll, Except.pure_eq_ok] at h
    subst h
    exact fun v hv => absurd hv List.not_mem_nil
  | t :: ts, es, h => by
    simp only [PolyTree.buildAll, Except.bind_eq_ok, Except.pure_eq_ok] at h
    obtain ⟨e, he, es', hes, rfl⟩ := h
    exact List.forall_mem_append.mpr ⟨t.build_inScope he, PolyTree.buildAll_inScope ts hes⟩

end

theorem InitialTree.build_inScope {t : InitialTree} {init : Option Initializer}
    (h : t.build d = .ok init) :
    ∀ value, init = some value → ∀ v ∈ value.references, v.InScope d := by
  intro value hvalue
  cases t with
  | none =>
    simp only [InitialTree.build, Except.pure_eq_ok] at h
    subst h
    cases hvalue
  | exp e =>
    simp only [InitialTree.build, Except.bind_eq_ok, Except.pure_eq_ok] at h
    obtain ⟨e', he, rfl⟩ := h
    cases hvalue
    exact e.build_inScope he
  | boolexp e =>
    simp only [InitialTree.build, Except.bind_eq_ok, Except.pure_eq_ok] at h
    obtain ⟨e', he, rfl⟩ := h
    cases hvalue
    exact e.build_inScope he

theorem IsInitial.inScope {type : DataType} {init : Option Initializer} {value : Initializer}
    (h : IsInitial type init value)
    (hinit : ∀ value, init = some value → ∀ v ∈ value.references, v.InScope d) :
    ∀ v ∈ value.references, v.InScope d := by
  rcases h with h | ⟨-, h⟩
  · exact hinit value h
  · cases type <;> simp only [Initializer.default] at h <;> cases h <;>
      exact fun v hv => absurd hv List.not_mem_nil

end

/-! ### Commands -/

/-- Every reference in the commands is to a live slot. -/
def RefsLive (refs : List (VariableReference × Nat)) : Prop := ∀ r ∈ refs, r.1.fpOffset < r.2

theorem RefsLive.append {rs rs' : List (VariableReference × Nat)} (h : RefsLive rs)
    (h' : RefsLive rs') : RefsLive (rs ++ rs') := List.forall_mem_append.mpr ⟨h, h'⟩

theorem RefsLive.nil : RefsLive [] := fun _ h => absurd h List.not_mem_nil

theorem Framed.refsLive {d : Driver} {n : Nat} (hd : Framed d n) {vs : List VariableReference}
    (h : ∀ v ∈ vs, v.InScope d) : RefsLive (vs.map (·, n)) := by
  intro r hr
  obtain ⟨v, hv, rfl⟩ := List.mem_map.mp hr
  exact hd.ofs_lt (h v hv)

mutual

/-- The walk that counts the slots is the one that the parser records. -/
theorem Command.slots_of_checked : (c : Command) → ∀ {root : Bool} {fns fns' : List FunctionEntry}
    {n n' : Nat}, c.checked root fns n = some (fns', n') → c.slots n = n'
  | .commandSequence cs trimFrom trimTo, root, fns, fns', n, n', h => by
    obtain ⟨n1, hcs, ⟨-, hto, rfl⟩ | ⟨-, hto, rfl⟩⟩ := Command.checked_commandSequence h
    · rw [Command.slots, if_pos hto]
      exact Command.slotsAll_of_checked cs hcs
    · rw [Command.slots]
      split at hto
      · next hsame =>
        rw [if_pos hto, Command.slotsAll_of_checked cs hcs, hsame]
      · rw [if_neg (by omega), hto]
        rfl
  | .ifThen _ _, _, _, _, _, _, h => (Command.checked_ifThen h).2.2.symm
  | .ifThenElse _ _ _, _, _, _, _, _, h => (Command.checked_ifThenElse h).2.1.symm
  | .function _ _ _ _, _, _, _, _, _, h => (Command.checked_function h).2.1.symm
  | .empty, _, _, _, _, _, h | .printString _, _, _, _, _, _, h | .terminate, _, _, _, _, _, h => by
    cases h
    rfl
  | .indirectVarCreate .., _, _, _, _, _, h | .staticVarCreate .., _, _, _, _, _, h
  | .localVarCreate .., _, _, _, _, _, h | .numericAssignment .., _, _, _, _, _, h
  | .booleanAssignment .., _, _, _, _, _, h | .functionCall _, _, _, _, _, _, h
  | .printInt _, _, _, _, _, _, h => by
    obtain ⟨-, h⟩ := Option.ite_none_right_eq_some.mp h
    cases h
    rfl

theorem Command.slotsAll_of_checked : (cs : List Command) → ∀ {root : Bool}
    {fns fns' : List FunctionEntry} {n n' : Nat},
    Command.checkedAll root fns n cs = some (fns', n') → Command.slotsAll n cs = n'
  | [], _, _, _, _, _, h => by
    cases h
    rfl
  | c :: cs, _, _, _, _, _, h => by
    obtain ⟨fns1, n1, hc, hcs⟩ := Command.checkedAll_cons h
    rw [Command.slotsAll, c.slots_of_checked hc]
    exact Command.slotsAll_of_checked cs hcs

end

theorem Built.slots {root : Bool} {fns : List FunctionEntry} {d d' : Driver} {c : Command}
    (h : Built root fns d c d') :
    c.slots d.currentContext.frameSize = d'.currentContext.frameSize := by
  obtain ⟨fns', hc, -⟩ := h
  exact c.slots_of_checked hc

section

variable {d d' : Driver} {n : Nat}

theorem Declarator.build_refsLive (hd : Framed d n) {storage : Access} {type : DataType}
    {v : Declarator} {c : Command} (h : v.build storage type d = .ok (c, d')) :
    RefsLive (c.references n) := by
  simp only [Declarator.build, Except.bind_eq_ok] at h
  obtain ⟨_, _, ⟨declName, numStates⟩, _, init, hinit, h⟩ := h
  obtain ⟨-, h⟩ := Except.guard_eq_ok.mp h
  obtain ⟨access, s, d1, -, hcase⟩ := Driver.declareVariable_eq_ok h
  have hinit := InitialTree.build_inScope hinit
  rcases hcase with ⟨-, -, _, rfl⟩ | ⟨-, -, value, hvalue, rfl⟩ | ⟨-, -, value, hvalue, rfl⟩
  · exact .nil
  · exact hd.refsLive (hvalue.inScope hinit)
  · exact hd.refsLive (hvalue.inScope hinit)

theorem Declarator.buildAll_refsLive {storage : Access} {type : DataType} :
    (vs : List Declarator) → ∀ {fns : List FunctionEntry} {d d' : Driver} {n : Nat}
    {cs : List Command}, Knows d fns → Framed d n →
    Declarator.buildAll storage type d vs = .ok (cs, d') → RefsLive (Command.referencesAll n cs)
  | [], _, _, _, _, _, _, _, h => by
    cases h
    exact .nil
  | v :: vs, fns, d, d', n, cs, hk, hd, h => by
    simp only [Declarator.buildAll, Except.bind_eq_ok, Except.pure_eq_ok] at h
    obtain ⟨⟨c, d1⟩, hc, ⟨cs', d2⟩, hcs, h⟩ := h
    cases h
    have hbuilt : Built true fns d c d1 := Declarator.build_built hk hc
    have hgrows := Declarator.build_grows hd hc
    have hslots := hbuilt.slots
    rw [hd.frameSize, hgrows.framed.frameSize] at hslots
    obtain ⟨fns1, -, hk1, -⟩ := hbuilt
    rw [Command.referencesAll, hslots]
    exact (Declarator.build_refsLive hd hc).append
      (Declarator.buildAll_refsLive vs hk1 hgrows.framed hcs)

theorem references_sequence (n : Nat) (c : Command) (cs : List Command) :
    (sequence c cs).references n = Command.referencesAll n (c :: cs) := by
  unfold sequence
  split
  · next hnil => rw [hnil, Command.referencesAll, Command.referencesAll, List.append_nil]
  · rfl

theorem references_closeBrace (n size : Nat) (cs : List Command) (d : Driver) :
    (closeBrace size cs d).1.references n = Command.referencesAll n cs := by
  unfold closeBrace
  split <;> rfl

theorem PrintTree.buildAll_refsLive (hd : Framed d n) : (ts : List PrintTree) →
    ∀ {cs : List Command}, PrintTree.buildAll d ts = .ok cs →
    RefsLive (Command.referencesAll n cs)
  | [], _, h => by
    cases h
    exact .nil
  | t :: ts, cs, h => by
    simp only [PrintTree.buildAll, Except.bind_eq_ok, Except.pure_eq_ok] at h
    obtain ⟨c, hc, cs', hcs, rfl⟩ := h
    have hrest := PrintTree.buildAll_refsLive hd ts hcs
    cases t with
    | text t =>
      cases hc
      exact hrest
    | exp e =>
      simp only [PrintTree.build, Except.bind_eq_ok, Except.pure_eq_ok] at hc
      obtain ⟨e', he, rfl⟩ := hc
      exact (hd.refsLive (e.build_inScope he)).append hrest

/-- A command of the parser: the frame grows by its declarations, and its references are to live
slots. -/
structure Scoped (d : Driver) (n : Nat) (c : Command) (d' : Driver) (m : Nat) : Prop where
  grows : Grows d n d' m
  refs : RefsLive (c.references n)

structure ScopedAll (d : Driver) (n : Nat) (cs : List Command) (d' : Driver) (m : Nat) : Prop where
  grows : Grows d n d' m
  refs : RefsLive (Command.referencesAll n cs)

/-- A block that restores the variables. -/
theorem ScopedAll.closed {m : Nat} {cs : List Command} {commands : List CommandTree}
    (hd : Framed d n) (h : ScopedAll d n cs d' m)
    (hbuild : CommandTree.buildAll d commands = .ok (cs, d'))
    (hrestores : ∀ b ∈ closedBlock n d commands, b.Restores) :
    Scoped d n (closeBrace d.currentContext.frameSize cs d').1
      (closeBrace d.currentContext.frameSize cs d').2 n := by
  simp only [closedBlock, hbuild, List.forall_mem_singleton, BracedBlock.Restores] at hrestores
  rw [hd.frameSize] at hrestores ⊢
  refine ⟨hd.closeBrace cs hrestores, ?_⟩
  rw [references_closeBrace]
  exact h.refs

/-- A command that declares nothing, between the same contexts. -/
theorem Scoped.unchanged (hd : Framed d n) {c : Command} (h : RefsLive (c.references n)) :
    Scoped d n c d n := ⟨.refl hd, h⟩

end

mutual

/-- Where all blocks restore the variables, the parser keeps the frame filled. -/
theorem CommandTree.build_scoped : (t : CommandTree) → ∀ {fns : List FunctionEntry} {n : Nat}
    {d d' : Driver} {c : Command}, Knows d fns → Framed d n →
    (∀ b ∈ t.blocks n d, b.Restores) → t.build d = .ok (c, d') →
    Scoped d n c d' (n + t.declared)
  | .assignInt name value, fns, n, d, d', c, _, hd, _, h => by
    simp only [CommandTree.build, Except.bind_eq_ok, Except.pure_eq_ok] at h
    obtain ⟨_, hscan, e, he, v, hv, h⟩ := h
    cases h
    have hv := Driver.getVariableReference_inScope hscan (.inl rfl) hv
    exact .unchanged hd (hd.refsLive (List.forall_mem_cons.mpr ⟨hv, value.build_inScope he⟩))
  | .assignBool name value, fns, n, d, d', c, _, hd, _, h => by
    simp only [CommandTree.build, Except.bind_eq_ok, Except.pure_eq_ok] at h
    obtain ⟨_, hscan, e, he, v, hv, h⟩ := h
    cases h
    have hv := Driver.getVariableReference_inScope hscan (.inr rfl) hv
    exact .unchanged hd (hd.refsLive (List.forall_mem_cons.mpr ⟨hv, value.build_inScope he⟩))
  | .braced commands, fns, n, d, d', c, hk, hd, hblocks, h => by
    simp only [CommandTree.build, Except.bind_eq_ok, Except.pure_eq_ok] at h
    obtain ⟨⟨cs, d1⟩, hcs, h⟩ := h
    obtain ⟨hinner, hclosed⟩ := List.forall_mem_append.mp hblocks
    have hclose := (CommandTree.buildAll_scoped commands hk hd hinner hcs).closed hd hcs hclosed
    rw [h] at hclose
    exact hclose
  | .ifThen condition thenCase, fns, n, d, d', c, hk, hd, hblocks, h => by
    simp only [CommandTree.build, Except.bind_eq_ok, Except.pure_eq_ok] at h
    obtain ⟨e, he, ⟨cs, d1⟩, hcs, h⟩ := h
    cases h
    simp only [CommandTree.blocks, he] at hblocks
    obtain ⟨hinner, hclosed⟩ := List.forall_mem_append.mp hblocks
    have hthen := (CommandTree.buildAll_scoped thenCase hk hd hinner hcs).closed hd hcs hclosed
    exact ⟨hthen.grows, (hd.refsLive (condition.build_inScope he)).append hthen.refs⟩
  | .ifThenElse condition thenCase elseCase, fns, n, d, d', c, hk, hd, hblocks, h => by
    simp only [CommandTree.build, Except.bind_eq_ok] at h
    obtain ⟨e, he, ⟨cs, d1⟩, hcs, h⟩ := h
    obtain ⟨helseCase, h⟩ := Except.require_eq_ok.mp h
    simp only [Except.bind_eq_ok, Except.pure_eq_ok] at h
    obtain ⟨⟨c2, d2⟩, helse, h⟩ := h
    cases h
    simp only [CommandTree.blocks, he, hcs, helseCase, if_true] at hblocks
    obtain ⟨hinner, hblocks⟩ := List.forall_mem_append.mp hblocks
    obtain ⟨hclosed, hblocks⟩ := List.forall_mem_append.mp hblocks
    have hthen := (CommandTree.buildAll_scoped thenCase hk hd hinner hcs).closed hd hcs hclosed
    obtain ⟨fns1, -, hk1, -⟩ := (CommandTree.buildAll_built false thenCase hk hcs).closeBrace
    have helse' := elseCase.build_scoped hk1 hthen.grows.framed hblocks helse
    have hframe := elseCase.frameSize_of_isElseCase helseCase helse
    rw [helse'.grows.framed.frameSize, hthen.grows.framed.frameSize] at hframe
    rw [hframe] at helse'
    exact ⟨hthen.grows.trans helse'.grows,
      ((hd.refsLive (condition.build_inScope he)).append hthen.refs).append helse'.refs⟩
  | .variableDecl storage type first more semicolon, fns, n, d, d', c, hk, hd, _, h => by
    simp only [CommandTree.build, Except.bind_eq_ok, Except.pure_eq_ok] at h
    obtain ⟨⟨c1, d1⟩, hc, ⟨cs, d2⟩, hcs, h⟩ := h
    cases h
    have hall : Declarator.buildAll storage type d (first :: more) = .ok (c1 :: cs, d2) := by
      simp [Declarator.buildAll, hc, hcs, pure, Except.pure]
    refine ⟨Declarator.buildAll_grows (first :: more) hd hall, ?_⟩
    rw [references_sequence]
    exact Declarator.buildAll_refsLive (first :: more) hk hd hall
  | .function storage type name args body, fns, n, d, d', c, hk, hd, hblocks, h => by
    simp only [CommandTree.build, Except.bind_eq_ok, Except.pure_eq_ok] at h
    obtain ⟨⟨formals, d1⟩, hopen, ⟨cs, d2⟩, hcs, h⟩ := h
    cases h
    simp only [CommandTree.blocks, hopen] at hblocks
    obtain ⟨hin, -, hk1, hin1, -, hglobalSize⟩ := openFunction_eq_ok hk true hopen
    obtain ⟨hframed, hlen, hglobal⟩ := openFunction_framed hk hopen
    have hbody := CommandTree.buildAll_scoped body hk1 hframed hblocks hcs
    obtain ⟨-, -, -, hst⟩ := CommandTree.buildAll_built true body hk1 hcs
    have hcontext : d2.exitFunction.currentContext = d1.globalContext := hst.global hin1
    have hcurrent : d.currentContext = d.globalContext := by simp [Driver.currentContext, hin]
    have hvisible : d2.exitFunction.visible = d.visible := by
      rw [Driver.visible_eq, Driver.visible_eq, hcontext, hglobal, hcurrent]
    have hsize : d2.exitFunction.currentContext.frameSize = n := by
      rw [hcontext, hglobalSize, ← hcurrent, hd.frameSize]
    refine ⟨⟨Nat.le_refl n, ?_, ?_, hsize⟩, ?_⟩
    · rw [hvisible]
      exact .refl _ _
    · rw [hvisible]
      exact hd.filled
    · rw [Command.references, hlen]
      exact hbody.refs
  | .fncall name args, fns, n, d, d', c, hk, hd, _, h => by
    simp only [CommandTree.build, Except.bind_eq_ok, Except.pure_eq_ok] at h
    obtain ⟨_, _, as, has, call, hcall, h⟩ := h
    cases h
    obtain ⟨rfl, -⟩ := Driver.getFunctionCall_eq_ok hcall
    exact .unchanged hd (hd.refsLive (PolyTree.buildAll_inScope args has))
  | .print first more, fns, n, d, d', c, hk, hd, _, h => by
    simp only [CommandTree.build, Except.bind_eq_ok, Except.pure_eq_ok] at h
    obtain ⟨c1, hc, cs, hcs, h⟩ := h
    cases h
    have hall : PrintTree.buildAll d (first :: more) = .ok (c1 :: cs) := by
      simp [PrintTree.buildAll, hc, hcs]
    refine .unchanged hd ?_
    rw [references_sequence]
    exact PrintTree.buildAll_refsLive hd (first :: more) hall
  | .terminate, fns, n, d, d', c, hk, hd, _, h => by
    cases h
    exact .unchanged hd .nil

theorem CommandTree.buildAll_scoped : (ts : List CommandTree) → ∀ {fns : List FunctionEntry}
    {n : Nat} {d d' : Driver} {cs : List Command}, Knows d fns → Framed d n →
    (∀ b ∈ CommandTree.blocksAll n d ts, b.Restores) → CommandTree.buildAll d ts = .ok (cs, d') →
    ScopedAll d n cs d' (n + CommandTree.declaredAll ts)
  | [], fns, n, d, d', cs, hk, hd, _, h => by
    cases h
    exact ⟨.refl hd, .nil⟩
  | t :: ts, fns, n, d, d', cs, hk, hd, hblocks, h => by
    simp only [CommandTree.buildAll, Except.bind_eq_ok, Except.pure_eq_ok] at h
    obtain ⟨⟨c, d1⟩, hc, ⟨cs', d2⟩, hcs, h⟩ := h
    cases h
    simp only [CommandTree.blocksAll, hc] at hblocks
    obtain ⟨hfirst, hrest⟩ := List.forall_mem_append.mp hblocks
    have hscoped := t.build_scoped hk hd hfirst hc
    have hbuilt := t.build_built true hk hc
    have hslots := hbuilt.slots
    rw [hd.frameSize, hscoped.grows.framed.frameSize] at hslots
    obtain ⟨fns1, -, hk1, -⟩ := hbuilt
    have hall := CommandTree.buildAll_scoped ts hk1 hscoped.grows.framed hrest hcs
    refine ⟨?_, ?_⟩
    · have hgrows := hscoped.grows.trans hall.grows
      rw [Nat.add_assoc] at hgrows
      exact hgrows
    · rw [Command.referencesAll, hslots]
      exact hscoped.refs.append hall.refs

end

/-! ### The condition -/

theorem no_blocks : (∀ b ∈ ([] : List BracedBlock), b.Restores) ↔
    ∀ b ∈ ([] : List BracedBlock), b.Fits :=
  ⟨fun _ _ hb => absurd hb List.not_mem_nil, fun _ _ hb => absurd hb List.not_mem_nil⟩

/-- A block restores the variables exactly if it fits. -/
theorem closedBlock_restores_iff {d : Driver} {fns : List FunctionEntry} {n : Nat}
    (hk : Knows d fns) (hd : Framed d n) (commands : List CommandTree)
    (hinner : ∀ b ∈ CommandTree.blocksAll n d commands, b.Restores) :
    (∀ b ∈ closedBlock n d commands, b.Restores) ↔ ∀ b ∈ closedBlock n d commands, b.Fits := by
  unfold closedBlock
  split
  · next cs d' hcs =>
    have hgrows := (CommandTree.buildAll_scoped commands hk hd hinner hcs).grows
    rw [List.forall_mem_singleton, List.forall_mem_singleton, BracedBlock.Restores,
      BracedBlock.Fits, hd.frameSize, hgrows.closeBrace_iff hd cs]
    simp only
    omega
  · exact no_blocks

theorem closed_restores_iff {d : Driver} {fns : List FunctionEntry} {n : Nat}
    (hk : Knows d fns) (hd : Framed d n) {commands : List CommandTree}
    (ih : (∀ b ∈ CommandTree.blocksAll n d commands, b.Restores) ↔
      ∀ b ∈ CommandTree.blocksAll n d commands, b.Fits) :
    (∀ b ∈ CommandTree.blocksAll n d commands ++ closedBlock n d commands, b.Restores) ↔
      ∀ b ∈ CommandTree.blocksAll n d commands ++ closedBlock n d commands, b.Fits := by
  rw [List.forall_mem_append, List.forall_mem_append, ← ih]
  exact and_congr_right fun hinner => closedBlock_restores_iff hk hd commands hinner

mutual

theorem CommandTree.blocks_restore_iff : (t : CommandTree) → ∀ {fns : List FunctionEntry} {n : Nat}
    {d : Driver}, Knows d fns → Framed d n →
    ((∀ b ∈ t.blocks n d, b.Restores) ↔ ∀ b ∈ t.blocks n d, b.Fits)
  | .braced commands, fns, n, d, hk, hd =>
    closed_restores_iff hk hd (CommandTree.blocksAll_restore_iff commands hk hd)
  | .ifThen condition thenCase, fns, n, d, hk, hd => by
    simp only [CommandTree.blocks]
    split
    · exact closed_restores_iff hk hd (CommandTree.blocksAll_restore_iff thenCase hk hd)
    · exact no_blocks
  | .ifThenElse condition thenCase elseCase, fns, n, d, hk, hd => by
    simp only [CommandTree.blocks]
    split
    · cases hcs : CommandTree.buildAll d thenCase with
      | error e =>
        simp only [List.append_nil]
        exact CommandTree.blocksAll_restore_iff thenCase hk hd
      | ok built =>
        obtain ⟨cs, d1⟩ := built
        simp only
        rw [← List.append_assoc, List.forall_mem_append,
          List.forall_mem_append (p := BracedBlock.Fits),
          ← closed_restores_iff hk hd (CommandTree.blocksAll_restore_iff thenCase hk hd)]
        refine and_congr_right fun hthen => ?_
        obtain ⟨hinner, hclosed⟩ := List.forall_mem_append.mp hthen
        have hscoped :=
          (CommandTree.buildAll_scoped thenCase hk hd hinner hcs).closed hd hcs hclosed
        obtain ⟨fns1, -, hk1, -⟩ := (CommandTree.buildAll_built false thenCase hk hcs).closeBrace
        split
        · exact elseCase.blocks_restore_iff hk1 hscoped.grows.framed
        · exact no_blocks
    · exact no_blocks
  | .function storage type name args body, fns, n, d, hk, hd => by
    simp only [CommandTree.blocks]
    split
    · next formals d' hopen =>
      obtain ⟨-, -, hk1, -⟩ := openFunction_eq_ok hk true hopen
      exact CommandTree.blocksAll_restore_iff body hk1 (openFunction_framed hk hopen).1
    · exact no_blocks
  | .assignInt .., _, _, _, _, _ | .assignBool .., _, _, _, _, _ | .variableDecl .., _, _, _, _, _
  | .fncall .., _, _, _, _, _ | .print .., _, _, _, _, _ | .terminate, _, _, _, _, _ => by
    exact no_blocks

theorem CommandTree.blocksAll_restore_iff : (ts : List CommandTree) →
    ∀ {fns : List FunctionEntry} {n : Nat} {d : Driver}, Knows d fns → Framed d n →
    ((∀ b ∈ CommandTree.blocksAll n d ts, b.Restores) ↔
      ∀ b ∈ CommandTree.blocksAll n d ts, b.Fits)
  | [], _, _, _, _, _ => no_blocks
  | t :: ts, fns, n, d, hk, hd => by
    simp only [CommandTree.blocksAll]
    rw [List.forall_mem_append, List.forall_mem_append, ← t.blocks_restore_iff hk hd]
    refine and_congr_right fun hfirst => ?_
    split
    · next c d1 hc =>
      obtain ⟨fns1, -, hk1, -⟩ := t.build_built true hk hc
      exact CommandTree.blocksAll_restore_iff ts hk1
        (t.build_scoped hk hd hfirst hc).grows.framed
    · exact no_blocks

end

theorem framed_start (guid : Int) : Framed (Driver.start guid) 0 := by
  refine ⟨⟨?_, fun i hi => absurd hi (Nat.not_lt_zero i)⟩, rfl⟩
  intro name type ofs hname
  rw [Driver.visible_eq] at hname
  cases hname

/-- Each block restores the variables, and in an accepted program each reference is to a live slot,
exactly if each block has no variables of its own, or a single one in slot 0. -/
theorem scopes_restored_iff (guid : Int) (unit : List CommandTree) :
    ((∀ b ∈ CommandTree.blocksAll 0 (.start guid) unit, b.Restores) ∧
        ∀ commands d, (Driver.start guid).parseFile unit = .ok (commands, d) →
          RefsLive (Command.referencesAll 0 commands)) ↔
      ∀ b ∈ CommandTree.blocksAll 0 (.start guid) unit, b.Fits := by
  rw [← CommandTree.blocksAll_restore_iff unit (Knows.start guid) (framed_start guid)]
  constructor
  · exact fun h => h.1
  · intro hblocks
    refine ⟨hblocks, fun commands d hparse => ?_⟩
    obtain ⟨-, hbuild⟩ := Except.require_eq_ok.mp hparse
    exact (CommandTree.buildAll_scoped unit (Knows.start guid) (framed_start guid) hblocks
      hbuild).refs

/-- `int x; { int y; int z; } z = 1;` -/
def leakingBlock : List CommandTree :=
  [.variableDecl .localVar .int ⟨"x", [], .none⟩ [] true,
    .braced [.variableDecl .localVar .int ⟨"y", [], .none⟩ [] true,
      .variableDecl .localVar .int ⟨"z", [], .none⟩ [] true],
    .assignInt "z" (.number 1)]

/-- What a name stands for before and behind each block. -/
def CommandTree.scopesOf (unit : List CommandTree) (name : String) :
    List (Option (DataType × Int) × Option (DataType × Int)) :=
  (CommandTree.blocksAll 0 (.start 0) unit).map fun b =>
    (b.opening.visible name, b.closing.visible name)

/-- The variable before the block is lost, the last one of the block stays, and the assignment
behind it goes to slot 2 of a frame that has one slot. -/
theorem scope_leakingBlock :
    accepted leakingBlock (fun commands _ => (Command.referencesAll 0 commands).any fun r =>
        decide ((r.2 : Int) ≤ r.1.fpOffset)) = true ∧
      CommandTree.scopesOf leakingBlock "x" = [(some (.int, 0), none)] ∧
      CommandTree.scopesOf leakingBlock "z" = [(none, some (.int, 2))] ∧
      ¬ ∀ b ∈ CommandTree.blocksAll 0 (.start 0) leakingBlock, b.Restores := by
  have hlost : CommandTree.scopesOf leakingBlock "x" = [(some (.int, 0), none)] := by
    decide
  refine ⟨by decide, hlost, by decide, fun hall => ?_⟩
  obtain ⟨b, hb, hb'⟩ := List.mem_map.mp (hlost ▸ List.mem_singleton_self _)
  obtain ⟨hbefore, hafter⟩ := Prod.mk.inj hb'
  rw [hall b hb, hbefore] at hafter
  cases hafter

end OpenmrnCue.Logic
