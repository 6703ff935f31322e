import OpenmrnCue.Logic.Static
import Mathlib.Data.List.Forall2

/-! Calls and declarations.  `get_function_call` compares the arguments of a call with the
declaration of the function, but only the calls that stand as commands go through it: the calls
inside of an expression are built without the comparison. -/

namespace OpenmrnCue.Logic

/-! ### The calls and the functions of a program -/

def FunctionCall.name : FunctionCall → String
  | .mk _ name _ _ => name

def FunctionCall.args : FunctionCall → List PolymorphicExpression
  | .mk _ _ args _ => args

mutual

/-- The calls in an expression. -/
def IntExpression.calls : IntExpression → List FunctionCall
  | .intVariable _ | .intConstant _ => []
  | .intBinaryExpression _ left right => left.calls ++ right.calls
  | .intFunctionCall call => call :: call.argumentCalls

def BooleanExpression.calls : BooleanExpression → List FunctionCall
  | .boolVariable _ | .booleanConstant _ => []
  | .intComp _ left right => left.calls ++ right.calls
  | .boolNot left => left.calls
  | .boolAnd left right => left.calls ++ right.calls
  | .boolCmp _ left right => left.calls ++ right.calls
  | .boolOr left right => left.calls ++ right.calls
  | .boolFunctionCall call => call :: call.argumentCalls

def PolymorphicExpression.calls : PolymorphicExpression → List FunctionCall
  | .boolExpr e => e.calls
  | .intExpr e => e.calls
  | .var _ _ | .void => []

def PolymorphicExpression.callsAll : List PolymorphicExpression → List FunctionCall
  | [] => []
  | arg :: args => arg.calls ++ PolymorphicExpression.callsAll args

def FunctionCall.argumentCalls : FunctionCall → List FunctionCall
  | .mk _ _ args _ => PolymorphicExpression.callsAll args

end

def Initializer.calls : Initializer → List FunctionCall
  | .int e => e.calls
  | .bool e => e.calls

mutual

/-- The calls that stand in an expression or in an argument of another call. -/
def Command.innerCalls : Command → List FunctionCall
  | .empty | .printString _ | .terminate | .indirectVarCreate .. => []
  | .commandSequence commands _ _ => Command.innerCallsAll commands
  | .staticVarCreate _ _ _ _ init => init.calls
  | .localVarCreate _ _ _ init => init.calls
  | .numericAssignment _ value => value.calls
  | .booleanAssignment _ value => value.calls
  | .ifThen condition thenCase => condition.calls ++ thenCase.innerCalls
  | .ifThenElse condition thenCase elseCase =>
    condition.calls ++ thenCase.innerCalls ++ elseCase.innerCalls
  | .function _ _ _ body => Command.innerCallsAll body
  | .functionCall call => call.argumentCalls
  | .printInt value => value.calls

def Command.innerCallsAll : List Command → List FunctionCall
  | [] => []
  | c :: cs => c.innerCalls ++ Command.innerCallsAll cs

end

mutual

/-- The calls that stand as commands. -/
def Command.statementCalls : Command → List FunctionCall
  | .commandSequence commands _ _ => Command.statementCallsAll commands
  | .ifThen _ thenCase => thenCase.statementCalls
  | .ifThenElse _ thenCase elseCase => thenCase.statementCalls ++ elseCase.statementCalls
  | .function _ _ _ body => Command.statementCallsAll body
  | .functionCall call => [call]
  | _ => []

def Command.statementCallsAll : List Command → List FunctionCall
  | [] => []
  | c :: cs => c.statementCalls ++ Command.statementCallsAll cs

end

mutual

/-- The function definitions: names and parameters. -/
def Command.definitions : Command → List (String × List FunctionArgument)
  | .commandSequence commands _ _ => Command.definitionsAll commands
  | .ifThen _ thenCase => thenCase.definitions
  | .ifThenElse _ thenCase elseCase => thenCase.definitions ++ elseCase.definitions
  | .function name _ args body => (name, args) :: Command.definitionsAll body
  | _ => []

def Command.definitionsAll : List Command → List (String × List FunctionArgument)
  | [] => []
  | c :: cs => c.definitions ++ Command.definitionsAll cs

end

/-! ### What a call has to be like -/

/-- As many arguments as parameters, of their types, by reference for the mutable ones and by value
for the others. -/
def ArgumentsMatch (formals : List FunctionArgument) (args : List PolymorphicExpression) : Prop :=
  List.Forall₂ (fun formal arg => arg.getDataType = formal.type ∧
    formal.access = if arg.isVariable then .indirectVar else .localVar) formals args

/-- The call matches the definition of the function that it names. -/
def FunctionCall.Matches (definitions : List (String × List FunctionArgument))
    (call : FunctionCall) : Prop :=
  ∃ formals, (call.name, formals) ∈ definitions ∧ ArgumentsMatch formals call.args

/-- The comparison of `get_function_call` with the definition lets the call pass. -/
def FunctionCall.Passes (definitions : List (String × List FunctionArgument))
    (call : FunctionCall) : Prop :=
  ∃ formals, (call.name, formals) ∈ definitions ∧ call.args.length = formals.length ∧
    checkArguments call.name formals call.args = .ok ()

/-- The comparison finds every difference. -/
theorem checkArguments_eq_ok_iff (name : String) (formals : List FunctionArgument)
    (args : List PolymorphicExpression) (hlen : args.length = formals.length) :
    checkArguments name formals args = .ok () ↔ ArgumentsMatch formals args := by
  induction formals generalizing args with
  | nil =>
    obtain rfl := List.length_eq_zero_iff.mp hlen
    simp [checkArguments, ArgumentsMatch]
  | cons formal formals ih =>
    cases args with
    | nil => cases hlen
    | cons arg args =>
      have htail := ih args (by simpa using hlen)
      unfold ArgumentsMatch at htail ⊢
      simp only [checkArguments, Except.guard_eq_ok, List.forall₂_cons, htail]
      cases arg.isVariable <;> simp [and_assoc]

theorem FunctionCall.passes_iff_matches (definitions : List (String × List FunctionArgument))
    (call : FunctionCall) : call.Passes definitions ↔ call.Matches definitions := by
  constructor
  · rintro ⟨formals, hmem, hlen, hcheck⟩
    exact ⟨formals, hmem, (checkArguments_eq_ok_iff _ _ _ hlen).mp hcheck⟩
  · rintro ⟨formals, hmem, hmatch⟩
    have hlen : call.args.length = formals.length := (List.Forall₂.length_eq hmatch).symm
    exact ⟨formals, hmem, hlen, (checkArguments_eq_ok_iff _ _ _ hlen).mpr hmatch⟩

/-! ### The definitions that a walk finds -/

def FunctionEntry.definition (e : FunctionEntry) : String × List FunctionArgument := (e.name, e.args)

mutual

theorem Command.checked_definitions {root : Bool} : (c : Command) →
    ∀ {fns fns' : List FunctionEntry} {n n' : Nat}, c.checked root fns n = some (fns', n') →
    fns'.map FunctionEntry.definition = fns.map FunctionEntry.definition ++ c.definitions
  | .commandSequence cs _ _, fns, fns', n, n', h => by
    obtain ⟨n1, hcs, -⟩ := Command.checked_commandSequence h
    exact Command.checkedAll_definitions cs hcs
  | .ifThen _ thenCase, fns, fns', n, n', h => by
    obtain ⟨-, hthen, -⟩ := Command.checked_ifThen h
    exact thenCase.checked_definitions hthen
  | .ifThenElse _ thenCase elseCase, fns, fns', n, n', h => by
    obtain ⟨-, -, fns1, hthen, helse⟩ := Command.checked_ifThenElse h
    rw [elseCase.checked_definitions helse, thenCase.checked_definitions hthen,
      List.append_assoc]
    rfl
  | .function name _ args body, fns, fns', n, n', h => by
    obtain ⟨-, -, n1, hbody⟩ := Command.checked_function h
    rw [Command.checkedAll_definitions body hbody, List.map_append, List.append_assoc]
    rfl
  | .empty, _, _, _, _, h | .printString _, _, _, _, _, h | .terminate, _, _, _, _, h => by
    cases h
    exact (List.append_nil _).symm
  | .indirectVarCreate .., _, _, _, _, h | .staticVarCreate .., _, _, _, _, h
  | .localVarCreate .., _, _, _, _, h | .numericAssignment .., _, _, _, _, h
  | .booleanAssignment .., _, _, _, _, h | .functionCall _, _, _, _, _, h
  | .printInt _, _, _, _, _, h => by
    obtain ⟨-, h⟩ := Option.ite_none_right_eq_some.mp h
    cases h
    exact (List.append_nil _).symm

theorem Command.checkedAll_definitions {root : Bool} : (cs : List Command) →
    ∀ {fns fns' : List FunctionEntry} {n n' : Nat},
    Command.checkedAll root fns n cs = some (fns', n') →
    fns'.map FunctionEntry.definition =
      fns.map FunctionEntry.definition ++ Command.definitionsAll cs
  | [], _, _, _, _, h => by
    cases h
    exact (List.append_nil _).symm
  | c :: cs, fns, fns', n, n', h => by
    obtain ⟨fns1, n1, hc, hcs⟩ := Command.checkedAll_cons h
    rw [Command.checkedAll_definitions cs hcs, c.checked_definitions hc, List.append_assoc]
    rfl

end

/-! ### Calls as commands are compared -/

/-- The walk from here on only adds definitions. -/
theorem FunctionCall.Passes.append {call : FunctionCall}
    {definitions : List (String × List FunctionArgument)} (h : call.Passes definitions)
    (more : List (String × List FunctionArgument)) : call.Passes (definitions ++ more) := by
  obtain ⟨formals, hmem, hlen, hcheck⟩ := h
  exact ⟨formals, List.mem_append_left _ hmem, hlen, hcheck⟩

/-- The calls pass the comparison with the definitions up to here. -/
def StatementsPass (fns : List FunctionEntry) (calls : List FunctionCall)
    (definitions : List (String × List FunctionArgument)) : Prop :=
  ∀ call ∈ calls, call.Passes (fns.map FunctionEntry.definition ++ definitions)

theorem Declarator.build_statementCalls {storage : Access} {type : DataType} {d d' : Driver}
    {v : Declarator} {c : Command} (h : v.build storage type d = .ok (c, d')) :
    c.statementCalls = [] := by
  simp only [Declarator.build, Except.bind_eq_ok] at h
  obtain ⟨_, _, ⟨_, _⟩, _, init, _, h⟩ := h
  obtain ⟨-, h⟩ := Except.guard_eq_ok.mp h
  obtain ⟨_, _, _, _, hcase⟩ := Driver.declareVariable_eq_ok h
  rcases hcase with ⟨-, -, _, rfl⟩ | ⟨-, -, _, -, rfl⟩ | ⟨-, -, _, -, rfl⟩ <;> rfl

theorem Declarator.buildAll_statementCalls {storage : Access} {type : DataType} :
    (vs : List Declarator) → ∀ {d d' : Driver} {cs : List Command},
    Declarator.buildAll storage type d vs = .ok (cs, d') → Command.statementCallsAll cs = []
  | [], d, d', cs, h => by
    cases h
    rfl
  | v :: vs, d, d', cs, h => by
    simp only [Declarator.buildAll, Except.bind_eq_ok, Except.pure_eq_ok] at h
    obtain ⟨⟨c, d1⟩, hc, ⟨cs', d2⟩, hcs, h⟩ := h
    cases h
    simp [Command.statementCallsAll, Declarator.build_statementCalls hc,
      Declarator.buildAll_statementCalls vs hcs]

theorem PrintTree.buildAll_statementCalls {d : Driver} : (ts : List PrintTree) →
    ∀ {cs : List Command}, PrintTree.buildAll d ts = .ok cs → Command.statementCallsAll cs = []
  | [], cs, h => by
    cases h
    rfl
  | t :: ts, cs, h => by
    simp only [PrintTree.buildAll, Except.bind_eq_ok, Except.pure_eq_ok] at h
    obtain ⟨c, hc, cs', hcs, rfl⟩ := h
    have hnil : c.statementCalls = [] := by
      cases t with
      | text t =>
        cases hc
        rfl
      | exp e =>
        simp only [PrintTree.build, Except.bind_eq_ok, Except.pure_eq_ok] at hc
        obtain ⟨e', _, rfl⟩ := hc
        rfl
    simp [Command.statementCallsAll, hnil, PrintTree.buildAll_statementCalls ts hcs]

theorem statementCalls_sequence {c : Command} {cs : List Command}
    (h : Command.statementCallsAll (c :: cs) = []) : (sequence c cs).statementCalls = [] := by
  unfold sequence
  split
  · simp only [Command.statementCallsAll, List.append_eq_nil_iff] at h
    exact h.1
  · exact h

theorem statementCalls_closeBrace (n : Nat) (cs : List Command) (d : Driver) :
    (closeBrace n cs d).1.statementCalls = Command.statementCallsAll cs := by
  unfold closeBrace
  split <;> rfl

theorem definitions_closeBrace (n : Nat) (cs : List Command) (d : Driver) :
    (closeBrace n cs d).1.definitions = Command.definitionsAll cs := by
  unfold closeBrace
  split <;> rfl

/-- First the calls of one command, then those behind it. -/
theorem StatementsPass.append {fns fns1 : List FunctionEntry} {calls calls' : List FunctionCall}
    {defs defs' : List (String × List FunctionArgument)} (h : StatementsPass fns calls defs)
    (hfns : fns1.map FunctionEntry.definition = fns.map FunctionEntry.definition ++ defs)
    (h' : StatementsPass fns1 calls' defs') :
    StatementsPass fns (calls ++ calls') (defs ++ defs') := by
  intro call hcall
  rw [← List.append_assoc]
  rcases List.mem_append.mp hcall with hcall | hcall
  · exact (h call hcall).append defs'
  · rw [← hfns]
    exact h' call hcall

mutual

theorem CommandTree.build_statementsPass : (t : CommandTree) →
    ∀ {fns : List FunctionEntry} {d d' : Driver} {c : Command}, Knows d fns →
    t.build d = .ok (c, d') → StatementsPass fns c.statementCalls c.definitions
  | .assignInt .., fns, d, d', c, hk, h | .assignBool .., fns, d, d', c, hk, h => by
    simp only [CommandTree.build, Except.bind_eq_ok, Except.pure_eq_ok] at h
    obtain ⟨_, _, _, _, _, _, h⟩ := h
    cases h
    intro call hcall
    cases hcall
  | .terminate, fns, d, d', c, hk, h => by
    cases h
    intro call hcall
    cases hcall
  | .braced commands, fns, d, d', c, hk, h => by
    simp only [CommandTree.build, Except.bind_eq_ok, Except.pure_eq_ok] at h
    obtain ⟨⟨cs, d1⟩, hcs, h⟩ := h
    obtain rfl : (closeBrace d.currentContext.frameSize cs d1).1 = c := by rw [h]
    rw [statementCalls_closeBrace, definitions_closeBrace]
    exact CommandTree.buildAll_statementsPass commands hk hcs
  | .ifThen condition thenCase, fns, d, d', c, hk, h => by
    simp only [CommandTree.build, Except.bind_eq_ok, Except.pure_eq_ok] at h
    obtain ⟨e, he, ⟨cs, d1⟩, hcs, h⟩ := h
    cases h
    simp only [Command.statementCalls, Command.definitions, statementCalls_closeBrace,
      definitions_closeBrace]
    exact CommandTree.buildAll_statementsPass thenCase hk hcs
  | .ifThenElse condition thenCase elseCase, fns, d, d', c, hk, h => by
    simp only [CommandTree.build, Except.bind_eq_ok] at h
    obtain ⟨e, he, ⟨cs, d1⟩, hcs, h⟩ := h
    obtain ⟨-, h⟩ := Except.require_eq_ok.mp h
    simp only [Except.bind_eq_ok, Except.pure_eq_ok] at h
    obtain ⟨⟨c2, d2⟩, helse, h⟩ := h
    cases h
    obtain ⟨fns1, hthen, hk1, -⟩ :=
      (CommandTree.buildAll_built false thenCase hk hcs).closeBrace
    have hdefs := Command.checked_definitions _ hthen
    rw [definitions_closeBrace] at hdefs
    simp only [Command.statementCalls, Command.definitions, statementCalls_closeBrace,
      definitions_closeBrace]
    exact (CommandTree.buildAll_statementsPass thenCase hk hcs).append hdefs
      (elseCase.build_statementsPass hk1 helse)
  | .variableDecl storage type first more semicolon, fns, d, d', c, hk, h => by
    simp only [CommandTree.build, Except.bind_eq_ok, Except.pure_eq_ok] at h
    obtain ⟨⟨c1, d1⟩, hc, ⟨cs, d2⟩, hcs, h⟩ := h
    cases h
    have hnil : (sequence c1 cs).statementCalls = [] := statementCalls_sequence (by
      simp [Command.statementCallsAll, Declarator.build_statementCalls hc,
        Declarator.buildAll_statementCalls more hcs])
    intro call hcall
    simp [hnil] at hcall
  | .function storage type name args body, fns, d, d', c, hk, h => by
    simp only [CommandTree.build, Except.bind_eq_ok, Except.pure_eq_ok] at h
    obtain ⟨⟨formals, d1⟩, hopen, ⟨cs, d2⟩, hcs, h⟩ := h
    cases h
    obtain ⟨-, -, hk1, -⟩ := openFunction_eq_ok hk false hopen
    have hbody := CommandTree.buildAll_statementsPass body hk1 hcs
    intro call hcall
    simpa [FunctionEntry.definition, Command.definitions] using hbody call hcall
  | .fncall name args, fns, d, d', c, hk, h => by
    simp only [CommandTree.build, Except.bind_eq_ok, Except.pure_eq_ok] at h
    obtain ⟨_, hscan, as, has, call, hcall, h⟩ := h
    cases h
    obtain ⟨rfl, s, formals, hs, hformals, hlen, hcheck⟩ := Driver.getFunctionCall_eq_ok hcall
    obtain ⟨s', hs', e, he, hname, hargs⟩ := hk.of_scanId rfl (Except.require_eq_ok.mp hscan).1
    obtain rfl : s = s' := Option.some.inj (hs.symm.trans hs')
    obtain rfl := hargs formals hformals
    intro call hcall
    obtain rfl := List.mem_singleton.mp hcall
    refine ⟨e.args, List.mem_append_left _ (List.mem_map.mpr ⟨e, he, ?_⟩), hlen, hcheck⟩
    rw [FunctionEntry.definition, hname]
    rfl
  | .print first more, fns, d, d', c, hk, h => by
    simp only [CommandTree.build, Except.bind_eq_ok, Except.pure_eq_ok] at h
    obtain ⟨c1, hc, cs, hcs, h⟩ := h
    cases h
    have hall : PrintTree.buildAll d (first :: more) = .ok (c1 :: cs) := by
      simp [PrintTree.buildAll, hc, hcs]
    have hnil := statementCalls_sequence (PrintTree.buildAll_statementCalls _ hall)
    intro call hcall
    simp [hnil] at hcall

theorem CommandTree.buildAll_statementsPass : (ts : List CommandTree) →
    ∀ {fns : List FunctionEntry} {d d' : Driver} {cs : List Command}, Knows d fns →
    CommandTree.buildAll d ts = .ok (cs, d') →
    StatementsPass fns (Command.statementCallsAll cs) (Command.definitionsAll cs)
  | [], fns, d, d', cs, hk, h => by
    cases h
    intro call hcall
    cases hcall
  | t :: ts, fns, d, d', cs, hk, h => by
    simp only [CommandTree.buildAll, Except.bind_eq_ok, Except.pure_eq_ok] at h
    obtain ⟨⟨c, d1⟩, hc, ⟨cs', d2⟩, hcs, h⟩ := h
    cases h
    obtain ⟨fns1, hchecked, hk1, -⟩ := t.build_built true hk hc
    exact (t.build_statementsPass hk hc).append (Command.checked_definitions _ hchecked)
      (CommandTree.buildAll_statementsPass ts hk1 hcs)

end

/-- The calls of a program match the definitions if and only if those inside of expressions pass the
comparison that is made for calls as commands. -/
theorem matches_iff_inner_passes (guid : Int) (unit : List CommandTree) (commands : List Command)
    (d : Driver) (h : (Driver.start guid).parseFile unit = .ok (commands, d)) :
    (∀ call ∈ Command.statementCallsAll commands ++ Command.innerCallsAll commands,
        call.Matches (Command.definitionsAll commands)) ↔
      ∀ call ∈ Command.innerCallsAll commands, call.Passes (Command.definitionsAll commands) := by
  obtain ⟨-, h⟩ := Except.require_eq_ok.mp h
  have hstatements := CommandTree.buildAll_statementsPass unit (Knows.start guid) h
  constructor
  · intro hall call hcall
    exact (call.passes_iff_matches _).mpr (hall call (List.mem_append_right _ hcall))
  · intro hinner call hcall
    rw [← FunctionCall.passes_iff_matches]
    rcases List.mem_append.mp hcall with hcall | hcall
    · exact hstatements call hcall
    · exact hinner call hcall

end OpenmrnCue.Logic
