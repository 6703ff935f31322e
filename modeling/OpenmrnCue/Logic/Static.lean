import OpenmrnCue.Library.Except
import OpenmrnCue.Logic.Parser

/-! What the parser guarantees about its syntax trees: the frame sizes that it records are those of
a walk over the tree, and every call names a function that is defined before it or around it. -/

namespace OpenmrnCue.Logic

/-- A function definition of the program.  `atRoot` tells whether its code goes to the output of
`Driver::serialize` directly, and not to the code of a conditional first. -/
structure FunctionEntry where
  name : String
  args : List FunctionArgument
  atRoot : Bool
  deriving DecidableEq, Repr

section

-- The functions that are known, and the frame size, where an expression stands.
variable (fns : List FunctionEntry) (n : Nat)

mutual

/-- Every call has the frame size `n`, names a known function and leaves its value on the stack. -/
def IntExpression.checked : IntExpression → Bool
  | .intVariable _ | .intConstant _ => true
  | .intBinaryExpression _ left right => left.checked && right.checked
  | .intFunctionCall call => call.checked true

def BooleanExpression.checked : BooleanExpression → Bool
  | .boolVariable _ | .booleanConstant _ => true
  | .intComp _ left right => left.checked && right.checked
  | .boolNot left => left.checked
  | .boolAnd left right => left.checked && right.checked
  | .boolCmp _ left right => left.checked && right.checked
  | .boolOr left right => left.checked && right.checked
  | .boolFunctionCall call => call.checked true

def PolymorphicExpression.checked : PolymorphicExpression → Bool
  | .boolExpr e => e.checked
  | .intExpr e => e.checked
  | .var _ _ | .void => true

def PolymorphicExpression.checkedAll : List PolymorphicExpression → Bool
  | [] => true
  | arg :: args => arg.checked && PolymorphicExpression.checkedAll args

def FunctionCall.checked (retval : Bool) : FunctionCall → Bool
  | .mk stackOfs name args needRetval =>
    needRetval == retval && stackOfs == n && fns.any (·.name == name) && PolymorphicExpression.checkedAll args

end

def Initializer.checked : Initializer → Bool
  | .int e => e.checked fns n
  | .bool e => e.checked fns n

end

mutual

/-- A walk over a command: the functions and the frame size before and after it. -/
def Command.checked (root : Bool) (fns : List FunctionEntry) (n : Nat) :
    Command → Option (List FunctionEntry × Nat)
  | .empty | .printString _ | .terminate => some (fns, n)
  | .commandSequence commands trimStackFrom trimStackTo => do
    let (fns', n') ← Command.checkedAll root fns n commands
    if trimStackFrom = -1 ∧ trimStackTo = -1 then return (fns', n')
    else if trimStackFrom = n' ∧ trimStackTo = (if n' = n then -1 else (n : Int)) then
      return (fns', n)
    else none
  | .indirectVarCreate _ fpOffset _ _ _ => if fpOffset = n then some (fns, n + 1) else none
  | .staticVarCreate _ _ _ fpOffset init =>
    if fpOffset = n ∧ init.checked fns n then some (fns, n + 1) else none
  | .localVarCreate _ _ fpOffset init =>
    if fpOffset = n ∧ init.checked fns n then some (fns, n + 1) else none
  | .numericAssignment _ value => if value.checked fns n then some (fns, n) else none
  | .booleanAssignment _ value => if value.checked fns n then some (fns, n) else none
  | .ifThen condition thenCase =>
    if condition.checked fns n then
      match thenCase.checked false fns n with
      | some (fns, n') => if n' = n then some (fns, n) else none
      | none => none
    else none
  | .ifThenElse condition thenCase elseCase =>
    if condition.checked fns n then
      match thenCase.checked false fns n with
      | some (fns, n') =>
        if n' = n then
          match elseCase.checked false fns n with
          | some (fns, n') => if n' = n then some (fns, n) else none
          | none => none
        else none
      | none => none
    else none
  | .function name _ args body =>
    -- The function is known inside of its own body.
    if fns.any (·.name == name) then none
    else
      match Command.checkedAll false (fns ++ [⟨name, args, root⟩]) args.length body with
      | some (fns, _) => some (fns, n)
      | none => none
  | .functionCall call => if call.checked fns n false then some (fns, n) else none
  | .printInt value => if value.checked fns n then some (fns, n) else none

def Command.checkedAll (root : Bool) (fns : List FunctionEntry) (n : Nat) :
    List Command → Option (List FunctionEntry × Nat)
  | [] => some (fns, n)
  | c :: cs => do
    let (fns, n) ← c.checked root fns n
    Command.checkedAll root fns n cs

end

section

variable {root : Bool} {fns fns' : List FunctionEntry} {n n' : Nat}

theorem Command.checked_commandSequence {cs : List Command} {trimFrom trimTo : Int}
    (h : (Command.commandSequence cs trimFrom trimTo).checked root fns n = some (fns', n')) :
    ∃ n1, Command.checkedAll root fns n cs = some (fns', n1) ∧
      ((trimFrom = -1 ∧ trimTo = -1 ∧ n' = n1) ∨
        (trimFrom = n1 ∧ trimTo = (if n1 = n then -1 else (n : Int)) ∧ n' = n)) := by
  simp only [Command.checked, bind, Option.bind_eq_some_iff] at h
  obtain ⟨⟨fns1, n1⟩, hcs, h⟩ := h
  by_cases hlist : trimFrom = -1 ∧ trimTo = -1
  · rw [if_pos hlist] at h
    cases h
    exact ⟨_, hcs, .inl ⟨hlist.1, hlist.2, rfl⟩⟩
  · rw [if_neg hlist] at h
    obtain ⟨hbraced, h⟩ := Option.ite_none_right_eq_some.mp h
    cases h
    exact ⟨_, hcs, .inr ⟨hbraced.1, hbraced.2, rfl⟩⟩

theorem Command.checked_ifThen {condition : BooleanExpression} {thenCase : Command}
    (h : (Command.ifThen condition thenCase).checked root fns n = some (fns', n')) :
    condition.checked fns n ∧ thenCase.checked false fns n = some (fns', n) ∧ n' = n := by
  obtain ⟨hcond, h⟩ := Option.ite_none_right_eq_some.mp h
  split at h
  · next fns1 n1 hthen =>
    obtain ⟨rfl, h⟩ := Option.ite_none_right_eq_some.mp h
    cases h
    exact ⟨hcond, hthen, rfl⟩
  · cases h

theorem Command.checked_ifThenElse {condition : BooleanExpression} {thenCase elseCase : Command}
    (h : (Command.ifThenElse condition thenCase elseCase).checked root fns n = some (fns', n')) :
    condition.checked fns n ∧ n' = n ∧ ∃ fns1, thenCase.checked false fns n = some (fns1, n) ∧
      elseCase.checked false fns1 n = some (fns', n) := by
  obtain ⟨hcond, h⟩ := Option.ite_none_right_eq_some.mp h
  split at h
  · next fns1 n1 hthen =>
    obtain ⟨rfl, h⟩ := Option.ite_none_right_eq_some.mp h
    split at h
    · next fns2 n2 helse =>
      obtain ⟨rfl, h⟩ := Option.ite_none_right_eq_some.mp h
      cases h
      exact ⟨hcond, rfl, fns1, hthen, helse⟩
    · cases h
  · cases h

theorem Command.checked_function {name : String} {type : DataType} {args : List FunctionArgument}
    {body : List Command}
    (h : (Command.function name type args body).checked root fns n = some (fns', n')) :
    fns.any (·.name == name) = false ∧ n' = n ∧ ∃ n1,
      Command.checkedAll false (fns ++ [⟨name, args, root⟩]) args.length body =
        some (fns', n1) := by
  obtain ⟨hnew, h⟩ := Option.ite_none_left_eq_some.mp h
  split at h
  · next fns1 n1 hbody =>
    cases h
    exact ⟨by simpa using hnew, rfl, n1, hbody⟩
  · cases h

theorem Command.checkedAll_cons {c : Command} {cs : List Command}
    (h : Command.checkedAll root fns n (c :: cs) = some (fns', n')) :
    ∃ fns1 n1, c.checked root fns n = some (fns1, n1) ∧
      Command.checkedAll root fns1 n1 cs = some (fns', n') := by
  simp only [Command.checkedAll, bind, Option.bind_eq_some_iff] at h
  obtain ⟨⟨fns1, n1⟩, hc, hcs⟩ := h
  exact ⟨fns1, n1, hc, hcs⟩

end

mutual

/-- A command does not take variables away that it has not declared. -/
theorem Command.checked_le : (c : Command) → ∀ {root : Bool} {fns fns' : List FunctionEntry}
    {n n' : Nat}, c.checked root fns n = some (fns', n') → n ≤ n'
  | .commandSequence cs _ _, _, _, _, _, _, h => by
    obtain ⟨n1, hcs, ⟨-, -, rfl⟩ | ⟨-, -, rfl⟩⟩ := Command.checked_commandSequence h
    · exact Command.checkedAll_le cs hcs
    · exact Nat.le_refl _
  | .ifThen _ _, _, _, _, _, _, h => Nat.le_of_eq (Command.checked_ifThen h).2.2.symm
  | .ifThenElse _ _ _, _, _, _, _, _, h =>
    Nat.le_of_eq (Command.checked_ifThenElse h).2.1.symm
  | .function _ _ _ _, _, _, _, _, _, h =>
    Nat.le_of_eq (Command.checked_function h).2.1.symm
  | .empty, _, _, _, _, _, h | .printString _, _, _, _, _, _, h | .terminate, _, _, _, _, _, h => by
    cases h
    exact Nat.le_refl _
  | .indirectVarCreate .., _, _, _, _, _, h | .staticVarCreate .., _, _, _, _, _, h
  | .localVarCreate .., _, _, _, _, _, h => by
    obtain ⟨-, h⟩ := Option.ite_none_right_eq_some.mp h
    cases h
    exact Nat.le_succ _
  | .numericAssignment .., _, _, _, _, _, h | .booleanAssignment .., _, _, _, _, _, h
  | .functionCall _, _, _, _, _, _, h | .printInt _, _, _, _, _, _, h => by
    obtain ⟨-, h⟩ := Option.ite_none_right_eq_some.mp h
    cases h
    exact Nat.le_refl _

theorem Command.checkedAll_le : (cs : List Command) → ∀ {root : Bool}
    {fns fns' : List FunctionEntry} {n n' : Nat},
    Command.checkedAll root fns n cs = some (fns', n') → n ≤ n'
  | [], _, _, _, _, _, h => by
    cases h
    exact Nat.le_refl _
  | c :: cs, _, _, _, _, _, h => by
    obtain ⟨fns1, n1, hc, hcs⟩ := Command.checkedAll_cons h
    exact Nat.le_trans (c.checked_le hc) (Command.checkedAll_le cs hcs)

end

mutual

/-- A function that is known stays known. -/
theorem Command.checked_subset : (c : Command) → ∀ {root : Bool} {fns fns' : List FunctionEntry}
    {n n' : Nat}, c.checked root fns n = some (fns', n') → fns ⊆ fns'
  | .commandSequence cs _ _, _, _, _, _, _, h => by
    obtain ⟨n1, hcs, -⟩ := Command.checked_commandSequence h
    exact Command.checkedAll_subset cs hcs
  | .ifThen _ thenCase, _, _, _, _, _, h => thenCase.checked_subset (Command.checked_ifThen h).2.1
  | .ifThenElse _ thenCase elseCase, _, _, _, _, _, h => by
    obtain ⟨-, -, fns1, hthen, helse⟩ := Command.checked_ifThenElse h
    exact List.Subset.trans (thenCase.checked_subset hthen) (elseCase.checked_subset helse)
  | .function _ _ _ body, _, _, _, _, _, h => by
    obtain ⟨-, -, n1, hbody⟩ := Command.checked_function h
    exact List.Subset.trans (List.subset_append_left _ _) (Command.checkedAll_subset body hbody)
  | .empty, _, _, _, _, _, h | .printString _, _, _, _, _, _, h | .terminate, _, _, _, _, _, h => by
    cases h
    exact List.Subset.refl _
  | .indirectVarCreate .., _, _, _, _, _, h | .staticVarCreate .., _, _, _, _, _, h
  | .localVarCreate .., _, _, _, _, _, h | .numericAssignment .., _, _, _, _, _, h
  | .booleanAssignment .., _, _, _, _, _, h | .functionCall _, _, _, _, _, _, h
  | .printInt _, _, _, _, _, _, h => by
    obtain ⟨-, h⟩ := Option.ite_none_right_eq_some.mp h
    cases h
    exact List.Subset.refl _

theorem Command.checkedAll_subset : (cs : List Command) → ∀ {root : Bool}
    {fns fns' : List FunctionEntry} {n n' : Nat},
    Command.checkedAll root fns n cs = some (fns', n') → fns ⊆ fns'
  | [], _, _, _, _, _, h => by
    cases h
    exact List.Subset.refl _
  | c :: cs, _, _, _, _, _, h => by
    obtain ⟨fns1, n1, hc, hcs⟩ := Command.checkedAll_cons h
    exact List.Subset.trans (c.checked_subset hc) (Command.checkedAll_subset cs hcs)

end

/-! ### The symbol table of a parse -/

/-- The functions of the symbol table are `fns`, and have no address yet. -/
structure Knows (d : Driver) (fns : List FunctionEntry) : Prop where
  declared : ∀ name s, d.globalContext.symbolTable name = some s → s.symbolType = .function →
    ∃ e ∈ fns, e.name = name ∧ ∀ formals, s.args = some formals → formals = e.args
  listed : ∀ e ∈ fns, ∃ s, d.globalContext.symbolTable e.name = some s ∧
    s.symbolType = .function ∧ s.fpOffset = -1
  locals : ∀ name s, d.functionContext.symbolTable name = some s → s.symbolType = .variable

namespace Knows

variable {d : Driver} {fns : List FunctionEntry}

theorem start (guid : Int) : Knows (.start guid) [] := by
  constructor <;> simp [Driver.start, ParsingContext.empty]

/-- A function that the scanner finds is one of the list. -/
theorem of_findSymbol (h : Knows d fns) {name : String} {s : Symbol}
    (hs : d.findSymbol name = some s) (hfn : s.symbolType = .function) :
    d.findFunction name = some s ∧ ∃ e ∈ fns, e.name = name ∧
      ∀ formals, s.args = some formals → formals = e.args := by
  have hglobal : d.globalContext.symbolTable name = some s := by
    unfold Driver.findSymbol at hs
    cases hin : d.inFunction with
    | false =>
      simp only [Driver.currentContext, hin, Driver.isGlobalContext] at hs
      cases hg : d.globalContext.symbolTable name <;> simp_all
    | true =>
      simp only [Driver.currentContext, hin, Driver.isGlobalContext, if_true] at hs
      cases hf : d.functionContext.symbolTable name with
      | some s' =>
        simp only [hf, Option.some.injEq] at hs
        subst hs
        rw [h.locals name s' hf] at hfn
        cases hfn
      | none =>
        simp only [hf, Bool.not_true, Bool.false_eq_true, if_false] at hs
        exact (Option.filter_eq_some_iff.mp hs).1
  exact ⟨hglobal, h.declared name s hglobal hfn⟩

/-- The token of a function. -/
theorem of_scanId (h : Knows d fns) {name : String} {token : IdToken}
    (hscan : d.scanId name = token) (hfn : token ∈ [IdToken.intFnId, .boolFnId, .voidFnId]) :
    ∃ s, d.findFunction name = some s ∧ ∃ e ∈ fns, e.name = name ∧
      ∀ formals, s.args = some formals → formals = e.args := by
  unfold Driver.scanId at hscan
  cases hs : d.findSymbol name with
  | none =>
    rw [hs] at hscan
    subst hscan
    simp at hfn
  | some s =>
    simp only [hs] at hscan
    split at hscan
    · next htype _ => exact ⟨s, h.of_findSymbol hs htype⟩
    · next htype _ => exact ⟨s, h.of_findSymbol hs htype⟩
    · next htype _ => exact ⟨s, h.of_findSymbol hs htype⟩
    · subst hscan; simp at hfn
    · subst hscan; simp at hfn
    · subst hscan; simp at hfn

end Knows

theorem Driver.expect_eq_ok {d : Driver} {name : String} {token : IdToken} {u : Unit}
    (h : d.expect name token = .ok u) : d.scanId name = token :=
  (Except.require_eq_ok.mp h).1

/-- A call in an expression records the frame size. -/
theorem Driver.functionCallExp_eq_ok {d : Driver} {name : String}
    {args : List PolymorphicExpression} {call : FunctionCall}
    (h : d.functionCallExp name args = .ok call) :
    call = .mk d.currentContext.frameSize name args true := by
  unfold Driver.functionCallExp at h
  split at h
  · cases h
  · exact (Except.pure_eq_ok.mp h).symm

mutual

theorem ExpTree.build_checked {d : Driver} {fns : List FunctionEntry} (hk : Knows d fns) :
    (t : ExpTree) → ∀ {e : IntExpression}, t.build d = .ok e →
    e.checked fns d.currentContext.frameSize
  | .binary op left right, e, h => by
    simp only [ExpTree.build, Except.bind_eq_ok, Except.pure_eq_ok] at h
    obtain ⟨l, hl, r, hr, rfl⟩ := h
    simp [IntExpression.checked, left.build_checked hk hl, right.build_checked hk hr]
  | .number n, e, h | .minusNumber n, e, h => by
    simp only [ExpTree.build, Except.pure_eq_ok] at h
    subst h
    rfl
  | .intVar name, e, h => by
    simp only [ExpTree.build, Except.bind_eq_ok, Except.pure_eq_ok] at h
    obtain ⟨_, _, v, _, rfl⟩ := h
    rfl
  | .intFunction name args, e, h => by
    simp only [ExpTree.build, Except.bind_eq_ok, Except.pure_eq_ok] at h
    obtain ⟨_, hscan, as, has, call, hcall, rfl⟩ := h
    rw [Driver.functionCallExp_eq_ok hcall]
    obtain ⟨_, _, entry, hentry, hname, _⟩ := hk.of_scanId (Driver.expect_eq_ok hscan) (by simp)
    have hargs := PolyTree.buildAll_checked hk args has
    simp only [IntExpression.checked, FunctionCall.checked, hargs, beq_self_eq_true, Bool.true_and,
      Bool.and_true]
    exact List.any_eq_true.mpr ⟨entry, hentry, by simp [hname]⟩

theorem BoolExpTree.build_checked {d : Driver} {fns : List FunctionEntry} (hk : Knows d fns) :
    (t : BoolExpTree) → ∀ {e : BooleanExpression}, t.build d = .ok e →
    e.checked fns d.currentContext.frameSize
  | .constBool value, e, h => by
    simp only [BoolExpTree.build, Except.pure_eq_ok] at h
    subst h
    rfl
  | .boolCmp op left right, e, h => by
    simp only [BoolExpTree.build, Except.bind_eq_ok, Except.pure_eq_ok] at h
    obtain ⟨l, hl, r, hr, rfl⟩ := h
    simp [BooleanExpression.checked, left.build_checked hk hl, right.build_checked hk hr]
  | .and left right, e, h | .or left right, e, h => by
    simp only [BoolExpTree.build, Except.bind_eq_ok, Except.pure_eq_ok] at h
    obtain ⟨l, hl, r, hr, rfl⟩ := h
    simp [BooleanExpression.checked, left.build_checked hk hl, right.build_checked hk hr]
  | .intComp op left right, e, h => by
    simp only [BoolExpTree.build, Except.bind_eq_ok, Except.pure_eq_ok] at h
    obtain ⟨l, hl, r, hr, rfl⟩ := h
    simp [BooleanExpression.checked, left.build_checked hk hl, right.build_checked hk hr]
  | .not t, e, h => by
    simp only [BoolExpTree.build, Except.bind_eq_ok, Except.pure_eq_ok] at h
    obtain ⟨l, hl, rfl⟩ := h
    simp [BooleanExpression.checked, t.build_checked hk hl]
  | .boolVar name, e, h => by
    simp only [BoolExpTree.build, Except.bind_eq_ok, Except.pure_eq_ok] at h
    obtain ⟨_, _, v, _, rfl⟩ := h
    rfl
  | .boolFunction name args, e, h => by
    simp only [BoolExpTree.build, Except.bind_eq_ok, Except.pure_eq_ok] at h
    obtain ⟨_, hscan, as, has, call, hcall, rfl⟩ := h
    rw [Driver.functionCallExp_eq_ok hcall]
    obtain ⟨_, _, entry, hentry, hname, _⟩ := hk.of_scanId (Driver.expect_eq_ok hscan) (by simp)
    have hargs := PolyTree.buildAll_checked hk args has
    simp only [BooleanExpression.checked, FunctionCall.checked, hargs, beq_self_eq_true,
      Bool.true_and, Bool.and_true]
    exact List.any_eq_true.mpr ⟨entry, hentry, by simp [hname]⟩

theorem PolyTree.build_checked {d : Driver} {fns : List FunctionEntry} (hk : Knows d fns) :
    (t : PolyTree) → ∀ {e : PolymorphicExpression}, t.build d = .ok e →
    e.checked fns d.currentContext.frameSize
  | .exp t, e, h => by
    simp only [PolyTree.build, Except.bind_eq_ok, Except.pure_eq_ok] at h
    obtain ⟨e', he, rfl⟩ := h
    exact t.build_checked hk he
  | .boolexp t, e, h => by
    simp only [PolyTree.build, Except.bind_eq_ok, Except.pure_eq_ok] at h
    obtain ⟨e', he, rfl⟩ := h
    exact t.build_checked hk he
  | .refInt name, e, h | .refBool name, e, h => by
    simp only [PolyTree.build, Except.bind_eq_ok, Except.pure_eq_ok] at h
    obtain ⟨_, _, v, _, rfl⟩ := h
    rfl

theorem PolyTree.buildAll_checked {d : Driver} {fns : List FunctionEntry} (hk : Knows d fns) :
    (ts : List PolyTree) → ∀ {es : List PolymorphicExpression}, PolyTree.buildAll d ts = .ok es →
    PolymorphicExpression.checkedAll fns d.currentContext.frameSize es
  | [], es, h => by
    simp only [PolyTree.buildAll, Except.pure_eq_ok] at h
    subst h
    rfl
  | t :: ts, es, h => by
    simp only [PolyTree.buildAll, Except.bind_eq_ok, Except.pure_eq_ok] at h
    obtain ⟨e, he, es', hes, rfl⟩ := h
    simp [PolymorphicExpression.checkedAll, t.build_checked hk he,
      PolyTree.buildAll_checked hk ts hes]

end

/-! ### The driver along a parse -/

/-- Inside of a function, the global context does not change. -/
structure Stays (d d' : Driver) : Prop where
  inFunction : d'.inFunction = d.inFunction
  global : d.inFunction = true → d'.globalContext = d.globalContext

theorem Stays.refl (d : Driver) : Stays d d := ⟨rfl, fun _ => rfl⟩

theorem Stays.trans {d1 d2 d3 : Driver} (h1 : Stays d1 d2) (h2 : Stays d2 d3) : Stays d1 d3 :=
  ⟨h2.inFunction.trans h1.inFunction,
    fun hin => (h2.global (h1.inFunction.trans hin)).trans (h1.global hin)⟩

namespace Driver

variable (d : Driver)

@[simp] theorem currentContext_setContext (c : ParsingContext) :
    (d.setContext c).currentContext = c := by
  unfold setContext currentContext
  split <;> simp_all

@[simp] theorem inFunction_setContext (c : ParsingContext) :
    (d.setContext c).inFunction = d.inFunction := by
  unfold setContext
  split <;> rfl

theorem stays_setContext (c : ParsingContext) : Stays d (d.setContext c) :=
  ⟨d.inFunction_setContext c, fun hin => by simp [setContext, hin]⟩

@[simp] theorem frameSize_setFrameSize (n : Nat) :
    (d.setFrameSize n).currentContext.frameSize = n := by simp [setFrameSize]

@[simp] theorem symbolTable_setFrameSize (n : Nat) :
    (d.setFrameSize n).currentContext.symbolTable = d.currentContext.symbolTable := by
  simp [setFrameSize]

@[simp] theorem frameSize_setSymbol (name : String) (s : Symbol) :
    (d.setSymbol name s).currentContext.frameSize = d.currentContext.frameSize := by
  simp [setSymbol]

@[simp] theorem symbolTable_setSymbol (name : String) (s : Symbol) :
    (d.setSymbol name s).currentContext.symbolTable =
      Function.update d.currentContext.symbolTable name (some s) := by
  simp [setSymbol]

theorem inFunction_modifySymbol (name : String) (change : Symbol → Symbol) :
    (d.modifySymbol name change).inFunction = d.inFunction := by
  unfold modifySymbol
  split
  · simp [setSymbol]
  · split <;> rfl

theorem frameSize_modifySymbol (name : String) (change : Symbol → Symbol) :
    (d.modifySymbol name change).currentContext.frameSize = d.currentContext.frameSize := by
  unfold modifySymbol
  split
  · simp
  · split
    · rfl
    · unfold currentContext
      split <;> rfl

theorem globalFrameSize_modifySymbol (name : String) (change : Symbol → Symbol) :
    (d.modifySymbol name change).globalContext.frameSize = d.globalContext.frameSize := by
  unfold modifySymbol
  split
  · cases hin : d.inFunction <;> simp [setSymbol, setContext, currentContext, hin]
  · split <;> rfl

/-- What `allocate_variable` does when it succeeds. -/
theorem allocateVariable_eq_ok {d d' : Driver} {name : String} {type : DataType} {access : Access}
    {s : Symbol} (h : d.allocateVariable name type access = .ok (s, d')) :
    d.currentContext.symbolTable name = none ∧
      s = { Symbol.fresh with
        symbolType := .variable, fpOffset := d.currentContext.frameSize, dataType := type, access } ∧
      d' = (d.setSymbol name s).setFrameSize (d.currentContext.frameSize + 1) := by
  simp only [allocateVariable, Except.bind_eq_ok, Except.pure_eq_ok] at h
  obtain ⟨s0, hs0, h⟩ := h
  unfold allocateSymbol at hs0
  split at hs0
  · cases hs0
  · next hnone =>
    cases hs0
    cases h
    exact ⟨hnone, rfl, rfl⟩

theorem stays_allocateVariable {d d' : Driver} {name : String} {type : DataType} {access : Access}
    {s : Symbol} (h : d.allocateVariable name type access = .ok (s, d')) : Stays d d' := by
  obtain ⟨-, -, rfl⟩ := allocateVariable_eq_ok h
  exact (d.stays_setContext _).trans (Driver.stays_setContext _ _)

theorem frameSize_allocateVariable {d d' : Driver} {name : String} {type : DataType}
    {access : Access} {s : Symbol} (h : d.allocateVariable name type access = .ok (s, d')) :
    s.fpOffset = d.currentContext.frameSize ∧
      d'.currentContext.frameSize = d.currentContext.frameSize + 1 := by
  obtain ⟨-, rfl, rfl⟩ := allocateVariable_eq_ok h
  exact ⟨rfl, frameSize_setFrameSize _ _⟩

@[simp] theorem currentContext_allocateGuid :
    d.allocateGuid.2.currentContext = d.currentContext := rfl

theorem stays_allocateGuid : Stays d d.allocateGuid.2 := ⟨rfl, fun _ => rfl⟩

theorem scanId_eq_undeclId {d : Driver} {name : String} (h : d.scanId name = .undeclId) :
    d.findSymbol name = none := by
  unfold scanId at h
  split at h
  · assumption
  · split at h <;> cases h

/-- What is not in the current table comes from the global one. -/
theorem globalContext_of_findSymbol {d : Driver} {name : String} {s : Symbol}
    (hnone : d.currentContext.symbolTable name = none) (hs : d.findSymbol name = some s) :
    d.globalContext.symbolTable name = some s := by
  unfold findSymbol at hs
  rw [hnone] at hs
  cases hglobal : d.isGlobalContext <;> simp only [hglobal] at hs
  · exact (Option.filter_eq_some_iff.mp hs).1
  · cases hs

theorem currentContext_of_findSymbol {d : Driver} {name : String} (h : d.findSymbol name = none) :
    d.currentContext.symbolTable name = none := by
  unfold findSymbol at h
  split at h
  · cases h
  · assumption

end Driver

namespace Knows

variable {d : Driver} {fns : List FunctionEntry}

/-- Another table in the current context that has the same functions. -/
theorem setContext (h : Knows d fns) (c : ParsingContext)
    (hsub : ∀ name s, c.symbolTable name = some s → s.symbolType = .function →
      d.currentContext.symbolTable name = some s)
    (hkeep : ∀ name s, d.currentContext.symbolTable name = some s → s.symbolType = .function →
      s.fpOffset = -1 → c.symbolTable name = some s) : Knows (d.setContext c) fns := by
  cases hin : d.inFunction with
  | true =>
    simp only [Driver.currentContext, hin, if_true] at hsub
    simp only [Driver.setContext, hin, if_true]
    refine ⟨h.declared, h.listed, fun name s hs => ?_⟩
    by_contra hvar
    have hfn : s.symbolType = .function := by
      cases htype : s.symbolType <;> simp_all
    exact hvar (h.locals name s (hsub name s hs hfn))
  | false =>
    simp only [Driver.currentContext, hin, Bool.false_eq_true, if_false] at hsub hkeep
    simp only [Driver.setContext, hin, Bool.false_eq_true, if_false]
    refine ⟨fun name s hs hfn => h.declared name s (hsub name s hs hfn) hfn, fun e he => ?_,
      h.locals⟩
    obtain ⟨s, hs, hfn, hofs⟩ := h.listed e he
    exact ⟨s, hkeep e.name s hs hfn hofs, hfn, hofs⟩

theorem setFrameSize (h : Knows d fns) (n : Nat) : Knows (d.setFrameSize n) fns :=
  h.setContext _ (fun _ _ hs _ => hs) (fun _ _ hs _ _ => hs)

/-- A variable under a new name. -/
theorem setVariable (h : Knows d fns) {name : String}
    (hnew : d.currentContext.symbolTable name = none) {s : Symbol} (hs : s.symbolType = .variable) :
    Knows (d.setSymbol name s) fns := by
  refine h.setContext _ (fun other s' hs' hfn => ?_) (fun other s' hs' _ _ => ?_)
  · by_cases hother : other = name
    · subst hother
      simp only [Function.update_self, Option.some.injEq] at hs'
      subst hs'
      rw [hs] at hfn
      cases hfn
    · simpa [Function.update_of_ne hother] using hs'
  · have hother : other ≠ name := by
      rintro rfl
      rw [hnew] at hs'
      cases hs'
    simpa [Function.update_of_ne hother] using hs'

theorem trimStack (h : Knows d fns) (n : Nat) : Knows (d.trimStack n) fns := by
  refine h.setContext _ (fun name s hs _ => ?_) (fun name s hs _ hofs => ?_)
  · exact (Option.filter_eq_some_iff.mp hs).1
  · simp [hs, hofs]

theorem allocateVariable (h : Knows d fns) {name : String} {type : DataType} {access : Access}
    {s : Symbol} {d' : Driver} (hd : d.allocateVariable name type access = .ok (s, d')) :
    Knows d' fns := by
  obtain ⟨hnew, rfl, rfl⟩ := Driver.allocateVariable_eq_ok hd
  exact (h.setVariable hnew rfl).setFrameSize _

theorem allocateGuid (h : Knows d fns) : Knows d.allocateGuid.2 fns :=
  ⟨h.declared, h.listed, h.locals⟩

end Knows

/-! ### Declarations -/

/-- The initial value of a declaration: the given one, or the one of the type. -/
def IsInitial (type : DataType) (init : Option Initializer) (value : Initializer) : Prop :=
  init = some value ∨ init = none ∧ Initializer.default type = .ok value

theorem initialValue_eq_ok {type : DataType} {init : Option Initializer} {value : Initializer}
    (h : Driver.declareVariable.initialValue type init = .ok value) : IsInitial type init value := by
  unfold Driver.declareVariable.initialValue at h
  split at h
  · exact .inl (congrArg some (Except.ok.inj (Except.guard_eq_ok.mp h).2))
  · exact .inr ⟨rfl, h⟩

/-- What `declare_variable` does when it succeeds: a variable, and the command of its kind. -/
theorem Driver.declareVariable_eq_ok {d d' : Driver} {storage : Access} {type : DataType}
    {declName : Bytes} {numStates : Int} {name : String} {init : Option Initializer} {c : Command}
    (h : d.declareVariable storage type declName numStates name init = .ok (c, d')) :
    ∃ access s d1, d.allocateVariable name type access = .ok (s, d1) ∧
      ((storage = .indirectVar ∧ d' = d1.allocateGuid.2 ∧
          ∃ text, c = .indirectVarCreate text s.fpOffset d1.nextGuid type numStates) ∨
        (storage = .staticVar ∧ d' = d1.allocateGuid.2 ∧
          ∃ value, IsInitial type init value ∧
            c = .staticVarCreate name type d1.nextGuid s.fpOffset value) ∨
        (storage = .localVar ∧ d' = d1 ∧
          ∃ value, IsInitial type init value ∧ c = .localVarCreate name type s.fpOffset value)) := by
  simp only [Driver.declareVariable, Except.bind_eq_ok] at h
  obtain ⟨⟨s, d1⟩, hd1, h⟩ := h
  refine ⟨_, s, d1, hd1, ?_⟩
  cases storage with
  | indirectVar =>
    obtain ⟨-, h⟩ := Except.guard_eq_ok.mp h
    obtain ⟨-, h⟩ := Except.guard_eq_ok.mp h
    cases h
    exact .inl ⟨rfl, rfl, _, rfl⟩
  | staticVar =>
    simp only [Except.bind_eq_ok, Except.pure_eq_ok, Prod.mk.injEq] at h
    obtain ⟨value, hvalue, rfl, rfl⟩ := h
    exact .inr (.inl ⟨rfl, rfl, value, initialValue_eq_ok hvalue, rfl⟩)
  | localVar =>
    simp only [Except.bind_eq_ok, Except.pure_eq_ok, Prod.mk.injEq] at h
    obtain ⟨value, hvalue, rfl, rfl⟩ := h
    exact .inr (.inr ⟨rfl, rfl, value, initialValue_eq_ok hvalue, rfl⟩)

theorem IsInitial.checked {type : DataType} {init : Option Initializer} {value : Initializer}
    {fns : List FunctionEntry} {n : Nat} (h : IsInitial type init value)
    (hinit : ∀ v, init = some v → v.checked fns n) : value.checked fns n := by
  rcases h with h | ⟨-, h⟩
  · exact hinit value h
  · cases type <;> simp only [Initializer.default] at h <;> cases h <;> rfl

theorem InitialTree.build_checked {d : Driver} {fns : List FunctionEntry} (hk : Knows d fns)
    {t : InitialTree} {init : Option Initializer} (h : t.build d = .ok init) :
    ∀ v, init = some v → v.checked fns d.currentContext.frameSize := by
  intro v hv
  cases t with
  | none =>
    simp only [InitialTree.build, Except.pure_eq_ok] at h
    subst h
    cases hv
  | exp e =>
    simp only [InitialTree.build, Except.bind_eq_ok, Except.pure_eq_ok] at h
    obtain ⟨e', he, rfl⟩ := h
    cases hv
    exact e.build_checked hk he
  | boolexp e =>
    simp only [InitialTree.build, Except.bind_eq_ok, Except.pure_eq_ok] at h
    obtain ⟨e', he, rfl⟩ := h
    cases hv
    exact e.build_checked hk he

/-- What the actions of a command leave behind: the walk over the command finds the functions and
the frame size of the driver. -/
def Built (root : Bool) (fns : List FunctionEntry) (d : Driver) (c : Command) (d' : Driver) : Prop :=
  ∃ fns', c.checked root fns d.currentContext.frameSize =
      some (fns', d'.currentContext.frameSize) ∧ Knows d' fns' ∧ Stays d d'

def BuiltAll (root : Bool) (fns : List FunctionEntry) (d : Driver) (cs : List Command)
    (d' : Driver) : Prop :=
  ∃ fns', Command.checkedAll root fns d.currentContext.frameSize cs =
      some (fns', d'.currentContext.frameSize) ∧ Knows d' fns' ∧ Stays d d'

theorem BuiltAll.nil {root : Bool} {fns : List FunctionEntry} {d : Driver} (hk : Knows d fns) :
    BuiltAll root fns d [] d :=
  ⟨fns, rfl, hk, .refl d⟩

theorem BuiltAll.cons {root : Bool} {fns : List FunctionEntry} {d d1 d2 : Driver} {c : Command}
    {cs : List Command} (h : Built root fns d c d1)
    (hs : ∀ fns1, Knows d1 fns1 → BuiltAll root fns1 d1 cs d2) :
    BuiltAll root fns d (c :: cs) d2 := by
  obtain ⟨fns1, hc, hk1, hst1⟩ := h
  obtain ⟨fns2, hcs, hk2, hst2⟩ := hs fns1 hk1
  exact ⟨fns2, by simp [Command.checkedAll, hc, hcs], hk2, hst1.trans hst2⟩

theorem Declarator.build_built {root : Bool} {fns : List FunctionEntry} {d d' : Driver}
    (hk : Knows d fns) {storage : Access} {type : DataType} {v : Declarator} {c : Command}
    (h : v.build storage type d = .ok (c, d')) : Built root fns d c d' := by
  simp only [Declarator.build, Except.bind_eq_ok] at h
  obtain ⟨_, _, ⟨declName, numStates⟩, _, init, hinit, h⟩ := h
  obtain ⟨-, h⟩ := Except.guard_eq_ok.mp h
  obtain ⟨access, s, d1, hd1, hcase⟩ := Driver.declareVariable_eq_ok h
  have hk1 := hk.allocateVariable hd1
  have hinit' := InitialTree.build_checked hk hinit
  have hstays := Driver.stays_allocateVariable hd1
  obtain ⟨hofs, hframe⟩ := Driver.frameSize_allocateVariable hd1
  rcases hcase with ⟨-, rfl, _, rfl⟩ | ⟨-, rfl, value, hvalue, rfl⟩ | ⟨-, rfl, value, hvalue, rfl⟩
  · refine ⟨fns, ?_, hk1.allocateGuid, hstays.trans d1.stays_allocateGuid⟩
    simp [Command.checked, hofs, hframe]
  · refine ⟨fns, ?_, hk1.allocateGuid, hstays.trans d1.stays_allocateGuid⟩
    simp [Command.checked, hvalue.checked hinit', hofs, hframe]
  · refine ⟨fns, ?_, hk1, hstays⟩
    simp [Command.checked, hvalue.checked hinit', hofs, hframe]

theorem Declarator.buildAll_built {root : Bool} {storage : Access} {type : DataType} :
    (vs : List Declarator) → ∀ {fns : List FunctionEntry} {d d' : Driver} {cs : List Command},
    Knows d fns → Declarator.buildAll storage type d vs = .ok (cs, d') →
    BuiltAll root fns d cs d'
  | [], fns, d, d', cs, hk, h => by
    cases h
    exact .nil hk
  | v :: vs, fns, d, d', cs, hk, h => by
    simp only [Declarator.buildAll, Except.bind_eq_ok, Except.pure_eq_ok] at h
    obtain ⟨⟨c, d1⟩, hc, ⟨cs', d2⟩, hcs, h⟩ := h
    cases h
    exact .cons (Declarator.build_built hk hc) fun fns1 hk1 =>
      Declarator.buildAll_built vs hk1 hcs

/-- A list of commands, as one command. -/
theorem BuiltAll.sequence {root : Bool} {fns : List FunctionEntry} {d d' : Driver} {c : Command}
    {cs : List Command} (h : BuiltAll root fns d (c :: cs) d') :
    Built root fns d (sequence c cs) d' := by
  obtain ⟨fns', hcs, hk, hst⟩ := h
  refine ⟨fns', ?_, hk, hst⟩
  unfold Logic.sequence
  split
  · next hnil =>
    subst hnil
    simp only [Command.checkedAll, Option.bind_eq_bind, Option.bind_eq_some_iff] at hcs
    obtain ⟨⟨f1, n1⟩, hc, h1⟩ := hcs
    cases h1
    exact hc
  · simp [Command.checked, hcs]

/-! ### Blocks and functions -/

theorem Driver.stays_trimStack (d : Driver) (n : Nat) : Stays d (d.trimStack n) :=
  d.stays_setContext _

theorem Driver.stays_setFrameSize (d : Driver) (n : Nat) : Stays d (d.setFrameSize n) :=
  d.stays_setContext _

/-- The closing brace of a block records the frame sizes of the walk. -/
theorem BuiltAll.closeBrace {root : Bool} {fns : List FunctionEntry} {d d1 : Driver}
    {cs : List Command} (h : BuiltAll root fns d cs d1) :
    Built root fns d (closeBrace d.currentContext.frameSize cs d1).1
      (closeBrace d.currentContext.frameSize cs d1).2 := by
  obtain ⟨fns', hcs, hk, hst⟩ := h
  unfold Logic.closeBrace
  split
  · next hne =>
    refine ⟨fns', ?_, (hk.trimStack _).setFrameSize _,
      (hst.trans (d1.stays_trimStack _)).trans (Driver.stays_setFrameSize _ _)⟩
    simp [Command.checked, hcs, hne]
  · next heq =>
    refine ⟨fns', ?_, hk, hst⟩
    simp [Command.checked, hcs, not_not.mp heq]

theorem ArgumentTree.buildAll_eq_ok : (ts : List ArgumentTree) →
    ∀ {fns : List FunctionEntry} {d d' : Driver} {formals : List FunctionArgument},
    Knows d fns → ArgumentTree.buildAll d ts = .ok (formals, d') →
    Knows d' fns ∧ Stays d d' ∧
      d'.currentContext.frameSize = d.currentContext.frameSize + formals.length
  | [], fns, d, d', formals, hk, h => by
    cases h
    exact ⟨hk, .refl d, rfl⟩
  | t :: ts, fns, d, d', formals, hk, h => by
    simp only [ArgumentTree.buildAll, Except.bind_eq_ok, Except.pure_eq_ok] at h
    obtain ⟨_, _, ⟨s, d1⟩, hd1, ⟨formals', d2⟩, hformals, h⟩ := h
    cases h
    obtain ⟨hk', hst, hframe⟩ := ArgumentTree.buildAll_eq_ok ts (hk.allocateVariable hd1) hformals
    obtain ⟨-, hframe1⟩ := Driver.frameSize_allocateVariable hd1
    refine ⟨hk', (Driver.stays_allocateVariable hd1).trans hst, ?_⟩
    rw [hframe, hframe1]
    simp only [List.length_cons]
    omega

/-- A new function in the global table, without arguments yet, and the driver inside of it. -/
theorem Knows.enterFunction {d : Driver} {fns : List FunctionEntry} (hk : Knows d fns)
    (hin : d.inFunction = false) {name : String}
    (hnew : d.globalContext.symbolTable name = none) (type : DataType)
    (formals : List FunctionArgument) (root : Bool) :
    Knows ((d.setSymbol name { Symbol.fresh with symbolType := .function, dataType := type }).enterFunction
      type) (fns ++ [⟨name, formals, root⟩]) := by
  have hglobal : ((d.setSymbol name { Symbol.fresh with
      symbolType := .function, dataType := type }).enterFunction type).globalContext.symbolTable =
      Function.update d.globalContext.symbolTable name
        (some { Symbol.fresh with symbolType := .function, dataType := type }) := by
    simp [Driver.enterFunction, Driver.setSymbol, Driver.setContext, Driver.currentContext, hin]
  refine ⟨fun other s hs hfn => ?_, fun e he => ?_, fun other s hs => ?_⟩
  · rw [hglobal] at hs
    by_cases hother : other = name
    · subst hother
      rw [Function.update_self, Option.some.injEq] at hs
      subst hs
      exact ⟨⟨other, formals, root⟩, by simp, rfl, by simp [Symbol.fresh]⟩
    · rw [Function.update_of_ne hother] at hs
      obtain ⟨e, he, hname, hargs⟩ := hk.declared other s hs hfn
      exact ⟨e, List.mem_append_left _ he, hname, hargs⟩
  · rw [hglobal]
    rcases List.mem_append.mp he with he | he
    · obtain ⟨s, hs, hfn, hofs⟩ := hk.listed e he
      have hne : e.name ≠ name := by
        intro heq
        rw [heq, hnew] at hs
        cases hs
      exact ⟨s, by rw [Function.update_of_ne hne, hs], hfn, hofs⟩
    · obtain rfl := List.mem_singleton.mp he
      exact ⟨_, Function.update_self _ _ _, rfl, rfl⟩
  · have hlocal : ((d.setSymbol name { Symbol.fresh with
        symbolType := .function, dataType := type }).enterFunction type).functionContext.symbolTable =
        Function.update (fun _ => none) "return_value" (some (Driver.returnValue type)) := rfl
    rw [hlocal] at hs
    by_cases hother : other = "return_value"
    · subst hother
      rw [Function.update_self, Option.some.injEq] at hs
      subst hs
      rfl
    · simp [Function.update_of_ne hother] at hs

/-- The arguments are stored in the symbol of the function. -/
theorem Knows.setArguments {d : Driver} {fns : List FunctionEntry} {e : FunctionEntry}
    (hk : Knows d (fns ++ [e])) (hin : d.inFunction = true) :
    Knows (d.modifySymbol e.name fun s => { s with args := some e.args }) (fns ++ [e]) := by
  unfold Driver.modifySymbol
  split
  · next s hs =>
    simp only [Driver.currentContext, hin, if_true] at hs
    have hvar := hk.locals e.name s hs
    refine hk.setContext _ (fun other s' hs' hfn => ?_) (fun other s' hs' hfn _ => ?_)
    · by_cases hother : other = e.name
      · subst hother
        simp only [Function.update_self, Option.some.injEq] at hs'
        subst hs'
        rw [hvar] at hfn
        cases hfn
      · simpa [Function.update_of_ne hother] using hs'
    · simp only [Driver.currentContext, hin, if_true] at hs'
      rw [hk.locals other s' hs'] at hfn
      cases hfn
  · split
    · exact hk
    · next hnone _ s hs =>
      have hglobal := Driver.globalContext_of_findSymbol hnone hs
      refine ⟨fun other s' hs' hfn => ?_, fun e' he' => ?_, hk.locals⟩
      · by_cases hother : other = e.name
        · subst hother
          simp only [Function.update_self, Option.some.injEq] at hs'
          subst hs'
          exact ⟨e, by simp, rfl, fun formals hformals => (Option.some.inj hformals).symm⟩
        · simp only [Function.update_of_ne hother] at hs'
          exact hk.declared other s' hs' hfn
      · obtain ⟨s', hs', hfn', hofs'⟩ := hk.listed e' he'
        by_cases hother : e'.name = e.name
        · obtain rfl : s = s' := Option.some.inj (hglobal.symm.trans (hother ▸ hs'))
          exact ⟨{ s with args := some e.args }, by simp [hother], hfn', hofs'⟩
        · exact ⟨s', by simp [Function.update_of_ne hother, hs'], hfn', hofs'⟩

/-- The driver at the head of a function definition: the name of the function is in the global
table, and the frame of the function is empty. -/
def Driver.entered (d : Driver) (type : DataType) (name : String) : Driver :=
  (d.setSymbol name { Symbol.fresh with symbolType := .function, dataType := type }).enterFunction
    type

/-- What the head of a function definition does when it succeeds. -/
theorem openFunction_cases {d d' : Driver} {storage : Access} {type : DataType} {name : String}
    {args : List ArgumentTree} {formals : List FunctionArgument}
    (h : openFunction d storage type name args = .ok (formals, d')) :
    d.inFunction = false ∧ d.globalContext.symbolTable name = none ∧
      ∃ d1, ArgumentTree.buildAll (d.entered type name) args = .ok (formals, d1) ∧
        d' = d1.modifySymbol name fun s => { s with args := some formals } := by
  simp only [openFunction, Except.bind_eq_ok] at h
  obtain ⟨_, hscan, h⟩ := h
  obtain ⟨hin, h⟩ := Except.guard_eq_ok.mp h
  obtain ⟨-, h⟩ := Except.guard_eq_ok.mp h
  simp only [Except.bind_eq_ok] at h
  obtain ⟨s, hs, ⟨formals', d1⟩, hargs, h⟩ := h
  have hin' : d.inFunction = false := by simpa [Driver.isGlobalContext] using hin
  have hnew : d.globalContext.symbolTable name = none := by
    have := Driver.currentContext_of_findSymbol
      (Driver.scanId_eq_undeclId (Driver.expect_eq_ok hscan))
    simpa [Driver.currentContext, hin'] using this
  obtain rfl : s = { Symbol.fresh with symbolType := .function } := by
    unfold Driver.allocateSymbol at hs
    split at hs <;> cases hs
    rfl
  split at h
  · cases h
  · simp only [Except.bind_eq_ok, Except.pure_eq_ok, Prod.mk.injEq] at h
    obtain ⟨_, _, rfl, rfl⟩ := h
    exact ⟨hin', hnew, d1, hargs, rfl⟩

/-- The functions, the contexts and the frame behind the head of a function definition. -/
theorem openFunction_eq_ok {d d' : Driver} {fns : List FunctionEntry} (hk : Knows d fns)
    {storage : Access} {type : DataType} {name : String} {args : List ArgumentTree}
    {formals : List FunctionArgument} (root : Bool)
    (h : openFunction d storage type name args = .ok (formals, d')) :
    d.inFunction = false ∧ fns.any (·.name == name) = false ∧
      Knows d' (fns ++ [⟨name, formals, root⟩]) ∧ d'.inFunction = true ∧
      d'.currentContext.frameSize = formals.length ∧
      d'.globalContext.frameSize = d.globalContext.frameSize := by
  obtain ⟨hin, hnew, d1, hargs, rfl⟩ := openFunction_cases h
  have hfresh : fns.any (·.name == name) = false := by
    rw [List.any_eq_false]
    intro e he
    obtain ⟨s, hlisted, -⟩ := hk.listed e he
    simp only [beq_iff_eq]
    rintro rfl
    rw [hnew] at hlisted
    cases hlisted
  obtain ⟨hk2, hst, hframe⟩ :=
    ArgumentTree.buildAll_eq_ok args (hk.enterFunction hin hnew type formals root) hargs
  have hentered : (d.entered type name).inFunction = true := rfl
  have hd1 : d1.inFunction = true := hst.inFunction.trans hentered
  refine ⟨hin, hfresh, hk2.setArguments (e := ⟨name, formals, root⟩) hd1, ?_, ?_, ?_⟩
  · rw [Driver.inFunction_modifySymbol, hd1]
  · rw [Driver.frameSize_modifySymbol, hframe]
    exact Nat.zero_add _
  · rw [Driver.globalFrameSize_modifySymbol, hst.global hentered]
    simp [Driver.enterFunction, Driver.setSymbol, Driver.setContext, Driver.currentContext, hin]

/-! ### Commands -/

theorem PrintTree.buildAll_built (root : Bool) {fns : List FunctionEntry} {d : Driver}
    (hk : Knows d fns) : (ts : List PrintTree) → ∀ {cs : List Command},
    PrintTree.buildAll d ts = .ok cs → BuiltAll root fns d cs d
  | [], cs, h => by
    cases h
    exact .nil hk
  | t :: ts, cs, h => by
    simp only [PrintTree.buildAll, Except.bind_eq_ok, Except.pure_eq_ok] at h
    obtain ⟨c, hc, cs', hcs, rfl⟩ := h
    obtain ⟨fns', hall, hk', hst⟩ := PrintTree.buildAll_built root hk ts hcs
    refine ⟨fns', ?_, hk', hst⟩
    cases t with
    | text t =>
      cases hc
      exact hall
    | exp e =>
      simp only [PrintTree.build, Except.bind_eq_ok, Except.pure_eq_ok] at hc
      obtain ⟨e', he, rfl⟩ := hc
      simp [Command.checkedAll, Command.checked, e.build_checked hk he, hall]

theorem Driver.getFunctionCall_eq_ok {d : Driver} {name : String}
    {args : List PolymorphicExpression} {needResult : Bool} {call : FunctionCall}
    (h : d.getFunctionCall name args needResult = .ok call) :
    call = .mk d.currentContext.frameSize name args needResult ∧
      ∃ s formals, d.findFunction name = some s ∧ s.args = some formals ∧
        args.length = formals.length ∧ checkArguments name formals args = .ok () := by
  unfold Driver.getFunctionCall at h
  split at h
  · cases h
  · next s hs =>
    split at h
    · cases h
    · next formals hformals =>
      obtain ⟨hlen, h⟩ := Except.guard_eq_ok.mp h
      simp only [Except.bind_eq_ok, Except.pure_eq_ok] at h
      obtain ⟨_, hcheck, rfl⟩ := h
      exact ⟨rfl, s, formals, hs, hformals, not_not.mp hlen, hcheck⟩

theorem frameSize_closeBrace (n : Nat) (cs : List Command) (d : Driver) :
    (closeBrace n cs d).2.currentContext.frameSize = n := by
  unfold closeBrace
  split
  · simp
  · next h => exact not_not.mp h

/-- The frame is the same after an `else`. -/
theorem CommandTree.frameSize_of_isElseCase : (t : CommandTree) →
    ∀ {d d' : Driver} {c : Command}, t.isElseCase → t.build d = .ok (c, d') →
    d'.currentContext.frameSize = d.currentContext.frameSize
  | .braced commands, d, d', c, _, h => by
    simp only [CommandTree.build, Except.bind_eq_ok, Except.pure_eq_ok] at h
    obtain ⟨⟨cs, d1⟩, _, h⟩ := h
    rw [← frameSize_closeBrace d.currentContext.frameSize cs d1, h]
  | .ifThen condition thenCase, d, d', c, _, h => by
    simp only [CommandTree.build, Except.bind_eq_ok, Except.pure_eq_ok] at h
    obtain ⟨_, _, ⟨cs, d1⟩, _, h⟩ := h
    cases h
    exact frameSize_closeBrace _ _ _
  | .ifThenElse condition thenCase elseCase, d, d', c, _, h => by
    simp only [CommandTree.build, Except.bind_eq_ok] at h
    obtain ⟨_, _, ⟨cs, d1⟩, _, h⟩ := h
    obtain ⟨helse, h⟩ := Except.require_eq_ok.mp h
    simp only [Except.bind_eq_ok, Except.pure_eq_ok] at h
    obtain ⟨⟨c2, d2⟩, hbuild, h⟩ := h
    cases h
    rw [elseCase.frameSize_of_isElseCase helse hbuild, frameSize_closeBrace]
  | .assignInt .., _, _, _, h, _ | .assignBool .., _, _, _, h, _
  | .variableDecl .., _, _, _, h, _ | .function .., _, _, _, h, _ | .fncall .., _, _, _, h, _
  | .print .., _, _, _, h, _ | .terminate, _, _, _, h, _ => by cases h

mutual

/-- The walk over the command that the parser builds finds what the driver has recorded. -/
theorem CommandTree.build_built (root : Bool) : (t : CommandTree) →
    ∀ {fns : List FunctionEntry} {d d' : Driver} {c : Command}, Knows d fns →
    t.build d = .ok (c, d') → Built root fns d c d'
  | .assignInt name value, fns, d, d', c, hk, h => by
    simp only [CommandTree.build, Except.bind_eq_ok, Except.pure_eq_ok] at h
    obtain ⟨_, _, e, he, v, _, h⟩ := h
    cases h
    exact ⟨fns, by simp [Command.checked, value.build_checked hk he], hk, .refl d⟩
  | .assignBool name value, fns, d, d', c, hk, h => by
    simp only [CommandTree.build, Except.bind_eq_ok, Except.pure_eq_ok] at h
    obtain ⟨_, _, e, he, v, _, h⟩ := h
    cases h
    exact ⟨fns, by simp [Command.checked, value.build_checked hk he], hk, .refl d⟩
  | .braced commands, fns, d, d', c, hk, h => by
    simp only [CommandTree.build, Except.bind_eq_ok, Except.pure_eq_ok] at h
    obtain ⟨⟨cs, d1⟩, hcs, h⟩ := h
    have hclose := (CommandTree.buildAll_built root commands hk hcs).closeBrace
    rw [h] at hclose
    exact hclose
  | .ifThen condition thenCase, fns, d, d', c, hk, h => by
    simp only [CommandTree.build, Except.bind_eq_ok, Except.pure_eq_ok] at h
    obtain ⟨e, he, ⟨cs, d1⟩, hcs, h⟩ := h
    cases h
    obtain ⟨fns1, hthen, hk1, hst1⟩ :=
      (CommandTree.buildAll_built false thenCase hk hcs).closeBrace
    refine ⟨fns1, ?_, hk1, hst1⟩
    rw [frameSize_closeBrace] at hthen ⊢
    simp [Command.checked, condition.build_checked hk he, hthen]
  | .ifThenElse condition thenCase elseCase, fns, d, d', c, hk, h => by
    simp only [CommandTree.build, Except.bind_eq_ok] at h
    obtain ⟨e, he, ⟨cs, d1⟩, hcs, h⟩ := h
    obtain ⟨helseCase, h⟩ := Except.require_eq_ok.mp h
    simp only [Except.bind_eq_ok, Except.pure_eq_ok] at h
    obtain ⟨⟨c2, d2⟩, helse, h⟩ := h
    cases h
    obtain ⟨fns1, hthen, hk1, hst1⟩ :=
      (CommandTree.buildAll_built false thenCase hk hcs).closeBrace
    obtain ⟨fns2, helse', hk2, hst2⟩ := elseCase.build_built false hk1 helse
    have hframe := elseCase.frameSize_of_isElseCase helseCase helse
    rw [frameSize_closeBrace] at hthen helse' hframe
    refine ⟨fns2, ?_, hk2, hst1.trans hst2⟩
    rw [hframe] at helse' ⊢
    simp [Command.checked, condition.build_checked hk he, hthen, helse']
  | .variableDecl storage type first more semicolon, fns, d, d', c, hk, h => by
    simp only [CommandTree.build, Except.bind_eq_ok, Except.pure_eq_ok] at h
    obtain ⟨⟨c1, d1⟩, hc, ⟨cs, d2⟩, hcs, h⟩ := h
    cases h
    exact (BuiltAll.cons (Declarator.build_built hk hc) fun fns1 hk1 =>
      Declarator.buildAll_built more hk1 hcs).sequence
  | .function storage type name args body, fns, d, d', c, hk, h => by
    simp only [CommandTree.build, Except.bind_eq_ok, Except.pure_eq_ok] at h
    obtain ⟨⟨formals, d1⟩, hopen, ⟨cs, d2⟩, hcs, h⟩ := h
    cases h
    obtain ⟨hin, hfresh, hk1, hin1, hframe1, hglobal1⟩ := openFunction_eq_ok hk root hopen
    obtain ⟨fns2, hbody, hk2, hst2⟩ := CommandTree.buildAll_built false body hk1 hcs
    refine ⟨fns2, ?_, ⟨hk2.declared, hk2.listed, hk2.locals⟩, ?_, ?_⟩
    · have hframe : d2.exitFunction.currentContext.frameSize = d.currentContext.frameSize := by
        simp [Driver.exitFunction, Driver.currentContext, hst2.global hin1, hglobal1, hin]
      rw [hframe1] at hbody
      simp [Command.checked, hfresh, hbody, hframe]
    · exact hin.symm
    · intro hin'
      rw [hin] at hin'
      cases hin'
  | .fncall name args, fns, d, d', c, hk, h => by
    simp only [CommandTree.build, Except.bind_eq_ok, Except.pure_eq_ok] at h
    obtain ⟨_, hscan, as, has, call, hcall, h⟩ := h
    cases h
    obtain ⟨rfl, -⟩ := Driver.getFunctionCall_eq_ok hcall
    obtain ⟨_, _, entry, hentry, hname, _⟩ :=
      hk.of_scanId rfl (Except.require_eq_ok.mp hscan).1
    have hany : fns.any (·.name == name) = true :=
      List.any_eq_true.mpr ⟨entry, hentry, by simp [hname]⟩
    refine ⟨fns, ?_, hk, .refl d⟩
    simp [Command.checked, FunctionCall.checked, hany, PolyTree.buildAll_checked hk args has]
  | .print first more, fns, d, d', c, hk, h => by
    simp only [CommandTree.build, Except.bind_eq_ok, Except.pure_eq_ok] at h
    obtain ⟨c1, hc, cs, hcs, h⟩ := h
    cases h
    refine (PrintTree.buildAll_built root hk (first :: more) ?_).sequence
    simp [PrintTree.buildAll, hc, hcs]
  | .terminate, fns, d, d', c, hk, h => by
    cases h
    exact ⟨fns, rfl, hk, .refl d⟩

theorem CommandTree.buildAll_built (root : Bool) : (ts : List CommandTree) →
    ∀ {fns : List FunctionEntry} {d d' : Driver} {cs : List Command}, Knows d fns →
    CommandTree.buildAll d ts = .ok (cs, d') → BuiltAll root fns d cs d'
  | [], fns, d, d', cs, hk, h => by
    cases h
    exact .nil hk
  | t :: ts, fns, d, d', cs, hk, h => by
    simp only [CommandTree.buildAll, Except.bind_eq_ok, Except.pure_eq_ok] at h
    obtain ⟨⟨c, d1⟩, hc, ⟨cs', d2⟩, hcs, h⟩ := h
    cases h
    exact .cons (t.build_built root hk hc) fun fns1 hk1 =>
      CommandTree.buildAll_built root ts hk1 hcs

end

/-- What is known about the commands of a program that `parse_file` accepts. -/
theorem Driver.parseFile_checked {guid : Int} {unit : List CommandTree} {commands : List Command}
    {d : Driver} (h : (Driver.start guid).parseFile unit = .ok (commands, d)) :
    ∃ fns, Command.checkedAll true [] 0 commands = some (fns, d.currentContext.frameSize) ∧
      Knows d fns ∧ d.inFunction = false := by
  obtain ⟨-, h⟩ := Except.require_eq_ok.mp h
  obtain ⟨fns, hcs, hk, hst⟩ :=
    CommandTree.buildAll_built true unit (Knows.start guid) h
  exact ⟨fns, hcs, hk, hst.inFunction⟩

end OpenmrnCue.Logic
