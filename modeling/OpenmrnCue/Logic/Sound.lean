import Mathlib.Data.List.Pairwise
import OpenmrnCue.Logic.Emit
import OpenmrnCue.Logic.Static

/-! The stack discipline of compiled code.  `Sound` is a judgement on a list of instructions, as of
a verifier that walks over the code with the height of the stack above the frame pointer.  The code
of every program that the parser accepts passes it, so that what holds at each instruction follows
from the rules of the judgement alone. -/

namespace OpenmrnCue.Logic

/-- How many words an instruction takes off the stack and how many it pushes, if it does nothing
else to the stack and the pointer. -/
def OpCode.effect : OpCode → Option (Nat × Nat)
  | pushConstant0 | pushConstant1 | ifPreamble => some (0, 1)
  | pushTop => some (1, 2)
  | popOp | printNum => some (1, 0)
  | indirectLoad | boolNot | boolProject => some (1, 1)
  | indirectStore => some (2, 0)
  | numericPlus | numericMinus | numericMul | numericDiv | numericMod | boolEq | boolNeq
  | numericLeq | numericGeq | numericLt | numericGt | numericEq | numericNeq => some (2, 1)
  | printStr => some (0, 0)
  | _ => none

/-- The same for the instructions with an integer. -/
def OpCode.effectArg : OpCode → Option (Nat × Nat)
  | loadFpRel | createIndirectVar => some (0, 1)
  | storeFpRel => some (1, 0)
  | createStaticVar => some (0, 2)
  | _ => none

/-- A call that keeps the accounts of the compiler right: no word of an unfinished expression is on
the stack, the address is that of the function, and there are as many arguments as parameters. -/
def CallSite.Sound (T : List CompiledFunction) (site : CallSite) : Prop :=
  site.depth = 0 ∧ ∃ cf ∈ T, cf.name = site.name ∧ (cf.address : Int) = site.address ∧
    cf.args.length = site.operand

/-- What a call to `addr` with `n` arguments finds there.  Only code whose heights are not relied on
may call a function that has no address. -/
def Callee (T : List CompiledFunction) (tracked : Bool) (lim : Nat) (addr : Int) (n : Nat) : Prop :=
  (∃ cf ∈ T, (cf.address : Int) = addr ∧ cf.finish ≤ lim ∧
    (tracked = true → cf.args.length = n)) ∨ (addr = -1 ∧ tracked = false)

/-- The code is sound at the height `k`, with the constants of the second list on top of the stack.
`T` has the functions that can be called, those of this code end at `lim` at the latest, and
`imports` tells the variables that may be imported.  The code of the commands is `main` code, which
may end; a function ends with `RET`.  If the heights are `tracked`, then what follows an unsound
call is not looked at; otherwise nothing is said about the heights at the checks. -/
inductive Sound (T : List CompiledFunction) (imports : Int → Prop) (tracked main : Bool)
    (lim : Nat) : Nat → List Int → List Item → Prop
  | done {k ks} : main = true → Sound T imports tracked main lim k ks []
  | insn {op a b k ks rest} : op.effect = some (a, b) →
      Sound T imports tracked main lim (k + b) [] rest →
      Sound T imports tracked main lim (k + a) ks (.insn op :: rest)
  | insnArg {op arg a b k ks rest} : op.effectArg = some (a, b) →
      Sound T imports tracked main lim (k + b) [] rest →
      Sound T imports tracked main lim (k + a) ks (.insnArg op arg :: rest)
  | constant {value k ks rest} :
      Sound T imports tracked main lim (k + 1) (value :: ks) rest →
      Sound T imports tracked main lim k ks (.insnArg .pushConstant value :: rest)
  | check {n : Nat} {k ks rest} : (tracked = true → n = k) →
      Sound T imports tracked main lim k [] rest →
      Sound T imports tracked main lim k ks (.insnArg .checkStackLength n :: rest)
  | leave {n k : Nat} {arg : Int} {ks rest} : arg = n →
      Sound T imports tracked main lim k [] rest →
      Sound T imports tracked main lim (k + n) ks (.insnArg .leave arg :: rest)
  | jump {k ks code rest} :
      Sound T imports tracked main lim k [] rest →
      Sound T imports tracked main lim k ks
        (.insnArg .jump (itemBytes code).length :: (code ++ rest))
  | testJump {op k ks code rest} : op = .testJumpIfFalse ∨ op = .testJumpIfTrue →
      Sound T imports tracked main lim k [] (code ++ rest) →
      Sound T imports tracked main lim k [] rest →
      Sound T imports tracked main lim (k + 1) ks
        (.insnArg op (itemBytes code).length :: (code ++ rest))
  | importVar {guid k ks rest} : imports guid →
      Sound T imports tracked main lim (k + 1) [] rest →
      Sound T imports tracked main lim (k + 2) (0 :: guid :: ks) (.insn .importVar :: rest)
  | call {addr n k ks rest} : Callee T tracked lim addr n →
      Sound T imports tracked main lim k [] rest →
      Sound T imports tracked main lim (k + n + 1) (addr :: ks) (.insnArg .call n :: rest)
  | ret {k ks rest} : Sound T imports tracked main lim k ks (.insn .ret :: rest)
  | terminate {k ks rest} : Sound T imports tracked main lim k ks (.insn .terminate :: rest)
  | loadString {text k ks rest} : Sound T imports tracked main lim k [] rest →
      Sound T imports tracked main lim k ks (.loadString text :: rest)
  | createVar {guid numStates k ks rest} : Sound T imports tracked main lim k [] rest →
      Sound T imports tracked main lim k ks (.createVar guid numStates :: rest)
  | site {site k ks rest} : (tracked = true → site.Sound T) →
      Sound T imports tracked main lim k [] rest →
      Sound T imports tracked main lim k ks (.callSite site :: rest)
  | excluded {site k ks rest} : tracked = true → ¬site.Sound T →
      Sound T imports tracked main lim k ks (.callSite site :: rest)

variable {T : List CompiledFunction} {imports : Int → Prop} {tracked main : Bool} {lim : Nat}

/-- Less is known about the stack. -/
theorem Sound.append {k : Nat} {ks : List Int} {items : List Item}
    (h : Sound T imports tracked main lim k ks items) (more : List Int) :
    Sound T imports tracked main lim k (ks ++ more) items := by
  induction h with
  | done h => exact .done h
  | insn h hrest => exact .insn h hrest
  | insnArg h hrest => exact .insnArg h hrest
  | constant _ ih => exact .constant ih
  | check h hrest => exact .check h hrest
  | leave h hrest => exact .leave h hrest
  | jump hrest => exact .jump hrest
  | testJump h hcode hrest => exact .testJump h hcode hrest
  | importVar h hrest => exact .importVar h hrest
  | call h hrest => exact .call h hrest
  | ret => exact .ret
  | terminate => exact .terminate
  | loadString hrest => exact .loadString hrest
  | createVar hrest => exact .createVar hrest
  | site h hrest => exact .site h hrest
  | excluded h h' => exact .excluded h h'

theorem Sound.any {k : Nat} {items : List Item} (h : Sound T imports tracked main lim k [] items)
    (ks : List Int) : Sound T imports tracked main lim k ks items := h.append ks

/-! ### The addresses in the symbol table -/

/-- A function of the list that has an address is one of `T`, and ends at `lim` at the latest. -/
def Registered (T : List CompiledFunction) (lim : Nat) (fns : List FunctionEntry)
    (address : String → Int) : Prop :=
  ∀ e ∈ fns, address e.name = -1 ∨ ∃ cf ∈ T, cf.name = e.name ∧
    (cf.address : Int) = address e.name ∧ cf.finish ≤ lim

theorem Registered.mono {fns : List FunctionEntry} {address : String → Int} {lim' : Nat}
    (h : Registered T lim fns address) (hle : lim ≤ lim') : Registered T lim' fns address := by
  intro e he
  rcases h e he with h | ⟨cf, hcf, hname, haddr, hfin⟩
  · exact .inl h
  · exact .inr ⟨cf, hcf, hname, haddr, by omega⟩

/-- No two functions begin at the same offset. -/
def Separate (T : List CompiledFunction) : Prop :=
  ∀ cf ∈ T, ∀ cf' ∈ T, cf.address = cf'.address → cf = cf'

/-- A sound call finds a body for its arguments. -/
theorem Registered.callee {fns : List FunctionEntry} {address : String → Int}
    (h : Registered T lim fns address) (hsep : Separate T) {name : String} {n depth : Nat}
    (hknown : fns.any (·.name == name))
    (hsound : tracked = true → CallSite.Sound T ⟨name, address name, n, depth⟩) :
    Callee T tracked lim (address name) n := by
  obtain ⟨e, he, hname⟩ := List.any_eq_true.mp hknown
  obtain rfl := beq_iff_eq.mp hname
  cases htracked : tracked with
  | false =>
    rcases h e he with h | ⟨cf, hcf, _, haddr, hfin⟩
    · exact .inr ⟨h, rfl⟩
    · exact .inl ⟨cf, hcf, haddr, hfin, by simp⟩
  | true =>
    obtain ⟨_, cf, hcf, _, haddr, hargs⟩ := hsound htracked
    simp only at haddr hargs
    rcases h e he with h | ⟨cf', hcf', _, haddr', hfin⟩
    · omega
    · obtain rfl := hsep cf hcf cf' hcf' (by omega)
      exact .inl ⟨cf, hcf, haddr, hfin, fun _ => hargs⟩

/-! ### Expressions -/

theorem VariableReference.sound_emitFetch (v : VariableReference) {k : Nat} {ks : List Int}
    {rest : List Item} (hrest : Sound T imports tracked main lim (k + 1) [] rest) :
    Sound T imports tracked main lim k ks (v.emitFetch ++ rest) := by
  cases v with
  | localVar => exact .insnArg (a := 0) rfl hrest
  | globalVar => exact .insnArg (a := 0) rfl (.insn rfl hrest)

theorem VariableReference.sound_emitStore (v : VariableReference) {k : Nat} {ks : List Int}
    {rest : List Item} (hrest : Sound T imports tracked main lim k [] rest) :
    Sound T imports tracked main lim (k + 1) ks (v.emitStore ++ rest) := by
  cases v with
  | localVar => exact .insnArg (a := 1) rfl hrest
  | globalVar => exact .insnArg (a := 0) rfl (.insn (a := 2) rfl hrest)

theorem VariableReference.sound_emitRef (v : VariableReference) {k : Nat} {ks : List Int}
    {rest : List Item} (hrest : Sound T imports tracked main lim (k + 1) [] rest) :
    Sound T imports tracked main lim k ks (v.emitRef ++ rest) := by
  cases v with
  | localVar => exact .insnArg (a := 0) rfl hrest
  | globalVar => exact .insnArg (a := 0) rfl hrest

section

set_option linter.unusedSectionVars false

variable {fns : List FunctionEntry} {address : String → Int}
  (hreg : Registered T lim fns address) (hsep : Separate T)
include hreg hsep

mutual

/-- An expression pushes one word. -/
theorem IntExpression.sound {n : Nat} : (e : IntExpression) →
    ∀ {depth k : Nat} {ks : List Int} {rest : List Item}, e.checked fns n → k = n + depth →
    Sound T imports tracked main lim (k + 1) [] rest →
    Sound T imports tracked main lim k ks (e.emit address depth ++ rest)
  | .intVariable v, _, _, _, _, _, _, hrest => v.sound_emitFetch hrest
  | .intBinaryExpression op left right, depth, k, ks, rest, hc, hk, hrest => by
    simp only [IntExpression.checked, Bool.and_eq_true] at hc
    simp only [IntExpression.emit, List.append_assoc]
    refine left.sound hc.1 hk (right.sound hc.2 (by omega) ?_)
    exact .insn (a := 2) (by cases op <;> rfl) hrest
  | .intConstant value, depth, k, ks, rest, _, _, hrest => by
    simp only [IntExpression.emit]
    split
    · exact .insn (a := 0) rfl hrest
    · split
      · exact .insn (a := 0) rfl hrest
      · exact .constant (hrest.any _)
  | .intFunctionCall call, _, _, _, _, hc, hk, hrest => call.sound hc hk hrest

theorem BooleanExpression.sound {n : Nat} : (e : BooleanExpression) →
    ∀ {depth k : Nat} {ks : List Int} {rest : List Item}, e.checked fns n → k = n + depth →
    Sound T imports tracked main lim (k + 1) [] rest →
    Sound T imports tracked main lim k ks (e.emit address depth ++ rest)
  | .boolVariable v, _, _, _, _, _, _, hrest => v.sound_emitFetch hrest
  | .booleanConstant value, _, _, _, _, _, _, hrest => by
    cases value with
    | true => exact .insn (a := 0) rfl hrest
    | false => exact .insn (a := 0) rfl hrest
  | .boolFunctionCall call, _, _, _, _, hc, hk, hrest => call.sound hc hk hrest
  | .boolNot left, depth, k, ks, rest, hc, hk, hrest => by
    simp only [BooleanExpression.emit, List.append_assoc]
    exact left.sound hc hk (.insn (a := 1) rfl hrest)
  | .intComp op left right, depth, k, ks, rest, hc, hk, hrest => by
    simp only [BooleanExpression.checked, Bool.and_eq_true] at hc
    simp only [BooleanExpression.emit, List.append_assoc]
    refine left.sound hc.1 hk (right.sound hc.2 (by omega) ?_)
    exact .insn (a := 2) (by cases op <;> rfl) hrest
  | .boolCmp op left right, depth, k, ks, rest, hc, hk, hrest => by
    simp only [BooleanExpression.checked, Bool.and_eq_true] at hc
    simp only [BooleanExpression.emit, List.append_assoc]
    refine left.sound hc.1 hk (right.sound hc.2 (by omega) ?_)
    exact .insn (a := 2) (by cases op <;> rfl) hrest
  | .boolAnd left right, depth, k, ks, rest, hc, hk, hrest
  | .boolOr left right, depth, k, ks, rest, hc, hk, hrest => by
    simp only [BooleanExpression.checked, Bool.and_eq_true] at hc
    simp only [BooleanExpression.emit, List.append_assoc]
    refine left.sound hc.1 hk (.insn (a := 1) rfl ?_)
    refine .testJump (by simp) (.insn (a := 1) rfl ?_) hrest
    exact right.sound hc.2 hk hrest

theorem PolymorphicExpression.sound {n : Nat} :
    (e : PolymorphicExpression) →
    ∀ {depth k : Nat} {ks : List Int} {rest : List Item}, e.checked fns n → k = n + depth →
    Sound T imports tracked main lim (k + 1) [] rest →
    Sound T imports tracked main lim k ks (e.emit address depth ++ rest)
  | .boolExpr e, _, _, _, _, hc, hk, hrest => e.sound hc hk hrest
  | .intExpr e, _, _, _, _, hc, hk, hrest => e.sound hc hk hrest
  | .var _ v, _, _, _, _, _, _, hrest => v.sound_emitRef hrest
  | .void, _, _, _, _, _, _, hrest => .insn (a := 0) rfl hrest

theorem PolymorphicExpression.soundAll {n : Nat} :
    (es : List PolymorphicExpression) →
    ∀ {depth k : Nat} {ks : List Int} {rest : List Item},
    PolymorphicExpression.checkedAll fns n es → k = n + depth →
    Sound T imports tracked main lim (k + es.length) [] rest →
    Sound T imports tracked main lim k ks
      (PolymorphicExpression.emitAll address depth es ++ rest)
  | [], _, _, ks, _, _, _, hrest => hrest.any ks
  | e :: es, depth, k, ks, rest, hc, hk, hrest => by
    simp only [PolymorphicExpression.checkedAll, Bool.and_eq_true] at hc
    simp only [PolymorphicExpression.emitAll, List.append_assoc]
    refine e.sound hc.1 hk (PolymorphicExpression.soundAll es hc.2 (by omega) ?_)
    rwa [List.length_cons, Nat.add_comm es.length, ← Nat.add_assoc] at hrest

/-- So does a call, unless the word is dropped. -/
theorem FunctionCall.sound {n : Nat} {retval : Bool} :
    (call : FunctionCall) →
    ∀ {depth k : Nat} {ks : List Int} {rest : List Item}, call.checked fns n retval →
    k = n + depth → Sound T imports tracked main lim (k + if retval then 1 else 0) [] rest →
    Sound T imports tracked main lim k ks (call.emit address depth ++ rest)
  | .mk stackOfs name args needRetval, depth, k, ks, rest, hc, hk, hrest => by
    simp only [FunctionCall.checked, Bool.and_eq_true, beq_iff_eq] at hc
    obtain ⟨⟨⟨rfl, rfl⟩, hknown⟩, hargs⟩ := hc
    simp only [FunctionCall.emit, List.append_assoc, List.cons_append, List.nil_append]
    by_cases hsite : tracked = true → CallSite.Sound T ⟨name, address name, args.length, depth⟩
    · refine .site hsite (.check (fun ht => ?_) (.insn (a := 0) rfl ?_))
      · have hdepth : depth = 0 := (hsite ht).1
        omega
      refine PolymorphicExpression.soundAll args hargs (by omega) (.constant ?_)
      refine .call (k := k + 1) (hreg.callee hsep hknown hsite) ?_
      cases needRetval with
      | true => exact hrest
      | false => exact .insn (a := 1) rfl hrest
    · obtain ⟨ht, hunsound⟩ := Classical.not_imp.mp hsite
      exact .excluded ht hunsound

end

/-- The initial value of a variable. -/
theorem Initializer.sound {n : Nat} (init : Initializer)
    {depth k : Nat} {ks : List Int} {rest : List Item} (hc : init.checked fns n)
    (hk : k = n + depth) (hrest : Sound T imports tracked main lim (k + 1) [] rest) :
    Sound T imports tracked main lim k ks (init.emit address depth ++ rest) := by
  cases init with
  | int e => exact e.sound hreg hsep hc hk hrest
  | bool e => exact e.sound hreg hsep hc hk hrest

end

/-! ### Functions in the code -/

theorem Driver.inFunction_registerFunction (d : Driver) (name : String) (root : Bool)
    (size : Nat) : (d.registerFunction name root size).inFunction = d.inFunction := by
  unfold Driver.registerFunction
  split
  · rfl
  · split
    · rfl
    · unfold Driver.modifySymbol
      split
      · exact d.inFunction_setContext _
      · split <;> rfl

/-- The functions after a definition: only one that goes to the output directly gets an address. -/
theorem Driver.findFunction_registerFunction {d : Driver} (houtside : d.inFunction = false)
    (name : String) (root : Bool) (size : Nat) (name' : String) :
    (d.registerFunction name root size).findFunction name' =
      if root = true ∧ name' = name then
        (d.findFunction name').map fun s => { s with fpOffset := size }
      else d.findFunction name' := by
  obtain ⟨globalContext, functionContext, inFunction, nextGuid, errorOutput⟩ := d
  obtain rfl : inFunction = false := houtside
  cases root with
  | false => rfl
  | true =>
    cases hs : globalContext.symbolTable name with
    | none =>
      by_cases hname : name' = name
      · subst hname
        simp [Driver.registerFunction, Driver.findSymbol, Driver.currentContext,
          Driver.isGlobalContext, Driver.findFunction, hs, Driver.error]
      · simp [Driver.registerFunction, Driver.findSymbol, Driver.currentContext,
          Driver.isGlobalContext, Driver.findFunction, hs, Driver.error, hname]
    | some s =>
      by_cases hname : name' = name
      · subst hname
        simp [Driver.registerFunction, Driver.findSymbol, Driver.currentContext,
          Driver.findFunction, hs, Driver.modifySymbol, Driver.setSymbol, Driver.setContext]
      · simp [Driver.registerFunction, Driver.findSymbol, Driver.currentContext,
          Driver.findFunction, hs, Driver.modifySymbol, Driver.setSymbol, Driver.setContext, hname]

theorem Driver.address_registerFunction {d : Driver} (houtside : d.inFunction = false)
    (name : String) (root : Bool) (size : Nat) (name' : String) :
    (d.registerFunction name root size).address name' =
      if root = true ∧ name' = name ∧ (d.findFunction name).isSome = true then (size : Int)
      else d.address name' := by
  simp only [Driver.address, Driver.findFunction_registerFunction houtside]
  by_cases hname : root = true ∧ name' = name
  · obtain ⟨hroot, rfl⟩ := hname
    cases hs : d.findFunction name' <;> simp [hroot]
  · rw [if_neg hname, if_neg (fun h => hname ⟨h.1, h.2.1⟩)]

mutual

/-- Only definitions that go to the output directly are entered in the symbol table. -/
theorem Command.functions_emit : (c : Command) → ∀ (d : Driver) (ofs : Nat),
    (c.emit false d ofs).functions = []
  | .commandSequence cs _ _, d, ofs => Command.functions_emitAll cs d ofs
  | .empty, _, _ | .indirectVarCreate .., _, _ | .staticVarCreate .., _, _
  | .localVarCreate .., _, _ | .numericAssignment .., _, _ | .booleanAssignment .., _, _
  | .ifThen .., _, _ | .ifThenElse .., _, _ | .function .., _, _ | .functionCall _, _, _
  | .printString _, _, _ | .printInt _, _, _ | .terminate, _, _ => rfl

theorem Command.functions_emitAll : (cs : List Command) → ∀ (d : Driver) (ofs : Nat),
    (Command.emitAll false d ofs cs).functions = []
  | [], _, _ => rfl
  | c :: cs, d, ofs => by
    simp [Command.emitAll, c.functions_emit, Command.functions_emitAll cs]

end

/-- The body of the function is at its address in `items`, which begin at `ofs`. -/
def CompiledFunction.LocatedIn (items : List Item) (ofs : Nat) (cf : CompiledFunction) : Prop :=
  ∃ pre post, items = pre ++ cf.body ++ post ∧ cf.address = ofs + (itemBytes pre).length ∧
    0 < (itemBytes cf.body).length

theorem CompiledFunction.LocatedIn.append {items : List Item} {ofs : Nat} {cf : CompiledFunction}
    (h : cf.LocatedIn items ofs) (before after : List Item) {ofs' : Nat}
    (hofs : ofs = ofs' + (itemBytes before).length) :
    cf.LocatedIn (before ++ items ++ after) ofs' := by
  obtain ⟨pre, post, rfl, haddr, hpos⟩ := h
  refine ⟨before ++ pre, post ++ after, by simp, ?_, hpos⟩
  simp
  omega

theorem CompiledFunction.LocatedIn.finish_le {items : List Item} {ofs : Nat}
    {cf : CompiledFunction} (h : cf.LocatedIn items ofs) :
    ofs ≤ cf.address ∧ cf.address < cf.finish ∧ cf.finish ≤ ofs + (itemBytes items).length := by
  obtain ⟨pre, post, rfl, haddr, hpos⟩ := h
  simp only [CompiledFunction.finish, itemBytes_append, List.length_append]
  omega

mutual

theorem Command.located_emit : (c : Command) → ∀ {root : Bool} {d : Driver} {ofs : Nat},
    ∀ cf ∈ (c.emit root d ofs).functions, cf.LocatedIn (c.emit root d ofs).items ofs
  | .commandSequence cs _ _, root, d, ofs, cf, hcf => by
    have := Command.located_emitAll cs cf hcf
    exact this.append [] _ rfl
  | .function name _ args body, root, d, ofs, cf, hcf => by
    simp only [Command.emit] at hcf
    cases root with
    | false => simp at hcf
    | true =>
      obtain rfl := List.mem_singleton.mp hcf
      refine ⟨[.insnArg .jump _], [], (List.append_nil _).symm, ?_, by simp [Item.bytes]⟩
      rw [itemBytes_cons, itemBytes_nil, List.append_nil]
      rfl
  | .empty, _, _, _, _, h | .indirectVarCreate .., _, _, _, _, h
  | .staticVarCreate .., _, _, _, _, h | .localVarCreate .., _, _, _, _, h
  | .numericAssignment .., _, _, _, _, h | .booleanAssignment .., _, _, _, _, h
  | .ifThen .., _, _, _, _, h | .ifThenElse .., _, _, _, _, h | .functionCall _, _, _, _, _, h
  | .printString _, _, _, _, _, h | .printInt _, _, _, _, _, h | .terminate, _, _, _, _, h => by
    cases h

theorem Command.located_emitAll : (cs : List Command) → ∀ {root : Bool} {d : Driver} {ofs : Nat},
    ∀ cf ∈ (Command.emitAll root d ofs cs).functions,
      cf.LocatedIn (Command.emitAll root d ofs cs).items ofs
  | [], _, _, _, _, h => by cases h
  | c :: cs, root, d, ofs, cf, hcf => by
    simp only [Command.emitAll, List.mem_append] at hcf ⊢
    rcases hcf with hcf | hcf
    · exact (c.located_emit cf hcf).append [] _ rfl
    · simpa using (Command.located_emitAll cs cf hcf).append _ [] rfl

end


/-! ### Commands -/

/-- The driver while the code is written: it is outside of functions, and the addresses that it has
are those of functions of `T`. -/
structure Writing (T : List CompiledFunction) (lim : Nat) (F : List FunctionEntry) (d : Driver) :
    Prop where
  outside : d.inFunction = false
  registered : Registered T lim F d.address

variable {F : List FunctionEntry}

theorem Writing.mono {d : Driver} {lim' : Nat} (h : Writing T lim F d) (hle : lim ≤ lim') :
    Writing T lim' F d := ⟨h.outside, h.registered.mono hle⟩

theorem Writing.known {d : Driver} (h : Writing T lim F d) {fns : List FunctionEntry}
    (hsub : fns ⊆ F) : Registered T lim fns d.address := fun e he => h.registered e (hsub he)

theorem Writing.registerFunction {d : Driver} (h : Writing T lim F d) {name : String} {root : Bool}
    {size : Nat} (hcf : root = true → ∃ cf ∈ T, cf.name = name ∧ cf.address = size ∧
      cf.finish ≤ lim) : Writing T lim F (d.registerFunction name root size) := by
  refine ⟨by rw [d.inFunction_registerFunction, h.outside], fun e he => ?_⟩
  rw [Driver.address_registerFunction h.outside]
  split
  · next hroot =>
    obtain ⟨cf, hmem, hcfname, haddr, hfin⟩ := hcf hroot.1
    exact .inr ⟨cf, hmem, hcfname.trans hroot.2.1.symm, by rw [haddr], hfin⟩
  · exact h.registered e he

mutual

theorem Command.writing_emit : (c : Command) → ∀ {root : Bool} {d : Driver} {ofs : Nat},
    Writing T lim F d → (∀ cf ∈ (c.emit root d ofs).functions, cf ∈ T ∧ cf.finish ≤ lim) →
    Writing T lim F (c.emit root d ofs).driver
  | .commandSequence cs _ _, _, _, _, h, hfns => Command.writing_emitAll cs h hfns
  | .ifThen _ thenCase, root, d, ofs, h, _ =>
    thenCase.writing_emit h (by simp [Command.functions_emit])
  | .ifThenElse _ thenCase elseCase, root, d, ofs, h, _ =>
    elseCase.writing_emit (thenCase.writing_emit h (by simp [Command.functions_emit]))
      (by simp [Command.functions_emit])
  | .function name _ args body, root, d, ofs, h, hfns => by
    refine (Command.writing_emitAll body h (by simp [Command.functions_emitAll])).registerFunction
      fun hroot => ?_
    simp only [Command.emit, hroot, if_true, List.mem_singleton, forall_eq] at hfns
    exact ⟨_, hfns.1, rfl, rfl, hfns.2⟩
  | .empty, _, _, _, h, _ | .indirectVarCreate .., _, _, _, h, _
  | .staticVarCreate .., _, _, _, h, _ | .localVarCreate .., _, _, _, h, _
  | .numericAssignment .., _, _, _, h, _ | .booleanAssignment .., _, _, _, h, _
  | .functionCall _, _, _, _, h, _ | .printString _, _, _, _, h, _ | .printInt _, _, _, _, h, _
  | .terminate, _, _, _, h, _ => h

theorem Command.writing_emitAll : (cs : List Command) → ∀ {root : Bool} {d : Driver} {ofs : Nat},
    Writing T lim F d →
    (∀ cf ∈ (Command.emitAll root d ofs cs).functions, cf ∈ T ∧ cf.finish ≤ lim) →
    Writing T lim F (Command.emitAll root d ofs cs).driver
  | [], _, _, _, h, _ => h
  | c :: cs, root, d, ofs, h, hfns => by
    refine Command.writing_emitAll cs (c.writing_emit h fun cf hcf => hfns cf ?_)
      fun cf hcf => hfns cf ?_
    · exact List.mem_append_left _ hcf
    · exact List.mem_append_right _ hcf

end

/-- A variable that a program shares with the outside. -/
structure ExportedVariable where
  name : Bytes
  guid : Int
  type : DataType
  numStates : Int
  deriving DecidableEq, Repr

mutual

/-- The exported variables of a command, at any depth. -/
def Command.exports : Command → List ExportedVariable
  | .indirectVarCreate name _ guid type numStates => [⟨name, guid, type, numStates⟩]
  | .commandSequence commands _ _ => Command.exportsAll commands
  | .ifThen _ thenCase => thenCase.exports
  | .ifThenElse _ thenCase elseCase => thenCase.exports ++ elseCase.exports
  | .function _ _ _ body => Command.exportsAll body
  | _ => []

def Command.exportsAll : List Command → List ExportedVariable
  | [] => []
  | c :: cs => c.exports ++ Command.exportsAll cs

end

section

variable (hsep : Separate T)
include hsep

set_option linter.unusedSectionVars false

mutual

/-- The code of a command takes the stack from one frame size to the next. -/
theorem Command.sound : (c : Command) → ∀ {root : Bool} {d : Driver} {ofs : Nat}
    {fns fns' : List FunctionEntry} {k k' : Nat} {ks : List Int} {rest : List Item},
    Writing T lim F d → (∀ cf ∈ (c.emit root d ofs).functions, cf ∈ T ∧ cf.finish ≤ lim) →
    (∀ v ∈ c.exports, imports v.guid) → c.checked root fns k = some (fns', k') → fns' ⊆ F →
    Sound T imports tracked main lim k' [] rest →
    Sound T imports tracked main lim k ks ((c.emit root d ofs).items ++ rest)
  | .empty, _, _, _, _, _, _, _, _, _, _, _, _, h, hsub, hrest => by
    cases h
    exact hrest.any _
  | .terminate, _, _, _, _, _, _, _, _, _, _, _, _, _, _, _ => .terminate
  | .printString text, _, _, _, _, _, _, _, _, _, _, _, _, h, hsub, hrest => by
    cases h
    exact .loadString (.insn (a := 0) rfl hrest)
  | .printInt value, _, _, _, _, _, _, _, _, _, hw, _, _, h, hsub, hrest => by
    obtain ⟨hvalue, h⟩ := Option.ite_none_right_eq_some.mp h
    cases h
    simp only [Command.emit, Emitted.plain, List.append_assoc]
    exact value.sound (hw.known hsub) hsep hvalue rfl (.insn (a := 1) rfl hrest)
  | .functionCall call, _, _, _, _, _, _, _, _, _, hw, _, _, h, hsub, hrest => by
    obtain ⟨hcall, h⟩ := Option.ite_none_right_eq_some.mp h
    cases h
    exact call.sound (hw.known hsub) hsep hcall rfl hrest
  | .numericAssignment var value, _, _, _, _, _, _, _, _, _, hw, _, _, h, hsub, hrest => by
    obtain ⟨hvalue, h⟩ := Option.ite_none_right_eq_some.mp h
    cases h
    simp only [Command.emit, Emitted.plain, List.append_assoc]
    exact value.sound (hw.known hsub) hsep hvalue rfl (var.sound_emitStore hrest)
  | .booleanAssignment var value, _, _, _, _, _, _, _, _, _, hw, _, _, h, hsub, hrest => by
    obtain ⟨hvalue, h⟩ := Option.ite_none_right_eq_some.mp h
    cases h
    simp only [Command.emit, Emitted.plain, List.append_assoc, List.cons_append]
    exact value.sound (hw.known hsub) hsep hvalue rfl
      (.insn (a := 1) rfl (var.sound_emitStore hrest))
  | .indirectVarCreate _ _ guid _ _, _, _, _, _, _, _, _, _, _, _, _, hexp, h, hsub, hrest => by
    obtain ⟨-, h⟩ := Option.ite_none_right_eq_some.mp h
    cases h
    exact .constant (.constant (.importVar (hexp _ (List.mem_singleton_self _)) hrest))
  | .localVarCreate _ _ fpOffset init, _, _, _, _, _, _, _, _, _, hw, _, _, h, hsub, hrest => by
    obtain ⟨⟨rfl, hinit⟩, hnext⟩ := Option.ite_none_right_eq_some.mp h
    cases hnext
    exact .check (fun _ => rfl) (init.sound (hw.known hsub) hsep hinit rfl hrest)
  | .staticVarCreate name _ guid fpOffset init, _, _, _, _, _, k, _, _, _, hw, _, _, h, hsub, hrest => by
    obtain ⟨⟨rfl, hinit⟩, hnext⟩ := Option.ite_none_right_eq_some.mp h
    cases hnext
    simp only [Command.emit, Emitted.plain, List.cons_append]
    refine .insnArg (a := 0) (b := 2) rfl (.testJump (k := k + 1) (.inl rfl) ?_ hrest)
    rw [List.append_assoc]
    exact init.sound (hw.known hsub) hsep hinit rfl
      ((VariableReference.globalVar name k).sound_emitStore hrest)
  | .commandSequence cs trimFrom trimTo, _, d, ofs, _, _, k, _, _, rest, hw, hfns, hexp, h,
      hsub, hrest => by
    obtain ⟨n1, hcs, ⟨rfl, rfl, rfl⟩ | ⟨rfl, rfl, rfl⟩⟩ := Command.checked_commandSequence h
    · simp only [Command.emit, List.append_assoc]
      exact Command.soundAll cs hw hfns hexp hcs hsub hrest
    · simp only [Command.emit, List.append_assoc, Int.natCast_nonneg, if_true, List.cons_append]
      refine Command.soundAll cs hw hfns hexp hcs hsub (.check (fun _ => rfl) ?_)
      split
      · next hsame => exact hsame ▸ hrest
      · obtain ⟨m, rfl⟩ := Nat.exists_eq_add_of_le (Command.checkedAll_le cs hcs)
        rw [if_pos (Int.natCast_nonneg _)]
        exact .leave (by omega) hrest
  | .ifThen condition thenCase, _, _, _, _, _, _, _, _, _, hw, _, hexp, h, hsub, hrest => by
    obtain ⟨hcond, hthen, rfl⟩ := Command.checked_ifThen h
    have hsub0 := List.Subset.trans (thenCase.checked_subset hthen) hsub
    simp only [Command.emit, List.append_assoc, List.cons_append]
    refine condition.sound (hw.known hsub0) hsep hcond rfl (.testJump (.inl rfl) ?_ hrest)
    exact thenCase.sound hw (by simp [Command.functions_emit]) hexp hthen hsub hrest
  | .ifThenElse condition thenCase elseCase, _, d, _, _, _, _, k, _, _, hw, _, hexp, h, hsub, hrest => by
    obtain ⟨hcond, rfl, fns1, hthen, helse⟩ := Command.checked_ifThenElse h
    have hsub1 := List.Subset.trans (elseCase.checked_subset helse) hsub
    have hsub0 := List.Subset.trans (thenCase.checked_subset hthen) hsub1
    have hwthen : Writing T lim F (thenCase.emit false d 0).driver :=
      thenCase.writing_emit hw (by simp [Command.functions_emit])
    have helsecode : Sound T imports tracked main lim k []
        ((elseCase.emit false (thenCase.emit false d 0).driver 0).items ++ _) :=
      elseCase.sound hwthen (by simp [Command.functions_emit])
        (fun v hv => hexp v (List.mem_append_right _ hv)) helse hsub hrest
    have hthencode : Sound T imports tracked main lim k [] ((thenCase.emit false d 0).items ++
        .insnArg .jump (itemBytes
          (elseCase.emit false (thenCase.emit false d 0).driver 0).items).length ::
          ((elseCase.emit false (thenCase.emit false d 0).driver 0).items ++ _)) :=
      thenCase.sound hw (by simp [Command.functions_emit])
        (fun v hv => hexp v (List.mem_append_left _ hv)) hthen hsub1 (.jump hrest)
    rw [List.append_cons] at hthencode
    simp only [Command.emit, List.append_assoc, List.cons_append]
    refine condition.sound (hw.known hsub0) hsep hcond rfl ?_
    simpa only [List.append_assoc, List.cons_append] using
      Sound.testJump (.inl rfl) hthencode helsecode
  | .function _ _ _ body, _, _, _, _, _, _, _, _, _, _, _, _, h, hsub, hrest => by
    obtain ⟨-, rfl, -⟩ := Command.checked_function h
    exact .jump hrest

theorem Command.soundAll : (cs : List Command) → ∀ {root : Bool} {d : Driver} {ofs : Nat}
    {fns fns' : List FunctionEntry} {k k' : Nat} {ks : List Int} {rest : List Item},
    Writing T lim F d →
    (∀ cf ∈ (Command.emitAll root d ofs cs).functions, cf ∈ T ∧ cf.finish ≤ lim) →
    (∀ v ∈ Command.exportsAll cs, imports v.guid) →
    Command.checkedAll root fns k cs = some (fns', k') → fns' ⊆ F →
    Sound T imports tracked main lim k' [] rest →
    Sound T imports tracked main lim k ks ((Command.emitAll root d ofs cs).items ++ rest)
  | [], _, _, _, _, _, _, _, _, _, _, _, _, h, hsub, hrest => by
    cases h
    exact hrest.any _
  | c :: cs, _, _, _, _, _, _, _, _, _, hw, hfns, hexp, h, hsub, hrest => by
    obtain ⟨fns1, n1, hc, hcs⟩ := Command.checkedAll_cons h
    have hfnsc := fun cf hcf => hfns cf (List.mem_append_left _ hcf)
    have hsub1 := List.Subset.trans (Command.checkedAll_subset cs hcs) hsub
    simp only [Command.emitAll, List.append_assoc]
    refine c.sound hw hfnsc (fun v hv => hexp v (List.mem_append_left _ hv)) hc hsub1 ?_
    exact Command.soundAll cs (c.writing_emit hw hfnsc)
      (fun cf hcf => hfns cf (List.mem_append_right _ hcf))
      (fun v hv => hexp v (List.mem_append_right _ hv)) hcs hsub hrest

end

/-! ### The functions of a program -/

/-- The body of the function is sound, with its arguments on the stack. -/
def CompiledFunction.Sound (T : List CompiledFunction) (imports : Int → Prop) (tracked : Bool)
    (cf : CompiledFunction) : Prop :=
  Logic.Sound T imports tracked false cf.address cf.args.length [] cf.body

mutual

theorem Command.soundBodies : (c : Command) → ∀ {root : Bool} {d : Driver} {ofs : Nat}
    {fns fns' : List FunctionEntry} {k k' : Nat},
    Writing T ofs F d → (∀ cf ∈ (c.emit root d ofs).functions, cf ∈ T) →
    (∀ v ∈ c.exports, imports v.guid) → c.checked root fns k = some (fns', k') → fns' ⊆ F →
    ∀ cf ∈ (c.emit root d ofs).functions, cf.Sound T imports tracked
  | .commandSequence cs _ _, _, _, _, _, _, _, _, hw, hfns, hexp, h, hsub, cf, hcf => by
    obtain ⟨n1, hcs, -⟩ := Command.checked_commandSequence h
    exact Command.soundBodiesAll cs hw hfns hexp hcs hsub cf hcf
  | .function name _ args body, root, d, ofs, _, _, _, _, hw, _, hexp, h, hsub, cf, hcf => by
    obtain ⟨-, -, n1, hbody⟩ := Command.checked_function h
    simp only [Command.emit] at hcf
    cases root with
    | false => simp at hcf
    | true =>
      obtain rfl := List.mem_singleton.mp hcf
      exact Command.soundAll hsep body (hw.mono (Nat.le_add_right _ _))
        (by simp [Command.functions_emitAll]) hexp hbody hsub .ret
  | .empty, _, _, _, _, _, _, _, _, _, _, _, _, _, h
  | .indirectVarCreate .., _, _, _, _, _, _, _, _, _, _, _, _, _, h
  | .staticVarCreate .., _, _, _, _, _, _, _, _, _, _, _, _, _, h
  | .localVarCreate .., _, _, _, _, _, _, _, _, _, _, _, _, _, h
  | .numericAssignment .., _, _, _, _, _, _, _, _, _, _, _, _, _, h
  | .booleanAssignment .., _, _, _, _, _, _, _, _, _, _, _, _, _, h
  | .ifThen .., _, _, _, _, _, _, _, _, _, _, _, _, _, h
  | .ifThenElse .., _, _, _, _, _, _, _, _, _, _, _, _, _, h
  | .functionCall _, _, _, _, _, _, _, _, _, _, _, _, _, _, h
  | .printString _, _, _, _, _, _, _, _, _, _, _, _, _, _, h
  | .printInt _, _, _, _, _, _, _, _, _, _, _, _, _, _, h
  | .terminate, _, _, _, _, _, _, _, _, _, _, _, _, _, h => by cases h

theorem Command.soundBodiesAll : (cs : List Command) → ∀ {root : Bool} {d : Driver} {ofs : Nat}
    {fns fns' : List FunctionEntry} {k k' : Nat},
    Writing T ofs F d → (∀ cf ∈ (Command.emitAll root d ofs cs).functions, cf ∈ T) →
    (∀ v ∈ Command.exportsAll cs, imports v.guid) →
    Command.checkedAll root fns k cs = some (fns', k') → fns' ⊆ F →
    ∀ cf ∈ (Command.emitAll root d ofs cs).functions, cf.Sound T imports tracked
  | [], _, _, _, _, _, _, _, _, _, _, _, _, _, h => by cases h
  | c :: cs, root, d, ofs, _, _, _, _, hw, hfns, hexp, h, hsub, cf, hcf => by
    obtain ⟨fns1, n1, hc, hcs⟩ := Command.checkedAll_cons h
    have hfnsc : ∀ cf ∈ (c.emit root d ofs).functions, cf ∈ T :=
      fun cf hcf => hfns cf (List.mem_append_left _ hcf)
    rcases List.mem_append.mp hcf with hcf | hcf
    · exact c.soundBodies hw hfnsc (fun v hv => hexp v (List.mem_append_left _ hv)) hc
        (List.Subset.trans (Command.checkedAll_subset cs hcs) hsub) cf hcf
    · refine Command.soundBodiesAll cs (c.writing_emit (hw.mono (Nat.le_add_right _ _))
        fun cf hcf => ⟨hfnsc cf hcf, (c.located_emit cf hcf).finish_le.2.2⟩)
        (fun cf hcf => hfns cf (List.mem_append_right _ hcf))
        (fun v hv => hexp v (List.mem_append_right _ hv)) hcs hsub cf hcf

end

end

mutual

/-- The functions lie one behind the other. -/
theorem Command.pairwise_functions : (c : Command) → ∀ {root : Bool} {d : Driver} {ofs : Nat},
    (c.emit root d ofs).functions.Pairwise fun cf cf' => cf.finish ≤ cf'.address
  | .commandSequence cs _ _, _, _, _ => Command.pairwise_functionsAll cs
  | .function _ _ _ _, root, _, _ => by cases root <;> simp [Command.emit]
  | .empty, _, _, _ | .indirectVarCreate .., _, _, _ | .staticVarCreate .., _, _, _
  | .localVarCreate .., _, _, _ | .numericAssignment .., _, _, _ | .booleanAssignment .., _, _, _
  | .ifThen .., _, _, _ | .ifThenElse .., _, _, _ | .functionCall _, _, _, _
  | .printString _, _, _, _ | .printInt _, _, _, _ | .terminate, _, _, _ => .nil

theorem Command.pairwise_functionsAll : (cs : List Command) → ∀ {root : Bool} {d : Driver}
    {ofs : Nat},
    (Command.emitAll root d ofs cs).functions.Pairwise fun cf cf' => cf.finish ≤ cf'.address
  | [], _, _, _ => .nil
  | c :: cs, root, d, ofs => by
    refine List.pairwise_append.mpr ⟨c.pairwise_functions, Command.pairwise_functionsAll cs, ?_⟩
    intro cf hcf cf' hcf'
    have hbefore := (c.located_emit cf hcf).finish_le
    have hbehind := (Command.located_emitAll cs cf' hcf').finish_le
    omega

end

theorem Command.separate_functionsAll (cs : List Command) {root : Bool} {d : Driver} {ofs : Nat} :
    Separate (Command.emitAll root d ofs cs).functions := by
  have hne : (Command.emitAll root d ofs cs).functions.Pairwise fun cf cf' =>
      cf.address ≠ cf'.address := by
    refine (Command.pairwise_functionsAll cs).imp_of_mem fun {cf cf'} hcf _ hle => ?_
    have := (Command.located_emitAll cs cf hcf).finish_le
    omega
  have hinj : ∀ cf ∈ (Command.emitAll root d ofs cs).functions,
      ∀ cf' ∈ (Command.emitAll root d ofs cs).functions, cf.address = cf'.address → cf = cf' :=
    List.Pairwise.forall_of_forall_of_flip (fun _ _ _ => rfl)
      (hne.imp fun h heq => absurd heq h) (hne.imp fun h heq => absurd heq.symm h)
  exact hinj

/-- The preamble comes before the commands and ends the run. -/
theorem sound_preambleItems (commands : List Command) {k : Nat} {ks : List Int} {rest : List Item}
    (hrest : Sound T imports tracked main lim k [] rest) :
    Sound T imports tracked main lim k ks (preambleItems commands ++ rest) := by
  have hpreamble : ∀ cs : List Command, Sound T imports tracked main lim k []
      (cs.flatMap Command.emitPreamble ++ .insn .terminate :: rest) := by
    intro cs
    induction cs with
    | nil => exact .terminate
    | cons c cs ih =>
      rw [List.flatMap_cons, List.append_assoc]
      cases c with
      | indirectVarCreate => exact .loadString (.createVar ih)
      | _ => exact ih
  simp only [preambleItems, List.cons_append]
  refine .insn (a := 0) (b := 1) rfl (.testJump (.inl rfl) ?_ hrest)
  rw [List.append_assoc]
  exact hpreamble commands

/-- The code of a program and its functions are sound. -/
structure SoundProgram (imports : Int → Prop) (tracked : Bool) (e : Emitted) : Prop where
  code : Sound e.functions imports tracked true (itemBytes e.items).length 0 [] e.items
  located : ∀ cf ∈ e.functions, cf.LocatedIn e.items 0
  bodies : ∀ cf ∈ e.functions, cf.Sound e.functions imports tracked

/-- The code of a program, if the parser accepts it. -/
def compile (guid : Int) (unit : List CommandTree) : Option Emitted :=
  match (Driver.start guid).parseFile unit with
  | .ok (commands, d) => some (d.emit commands)
  | .error _ => none

theorem compile_eq_some {guid : Int} {unit : List CommandTree} {e : Emitted}
    (h : compile guid unit = some e) :
    ∃ commands d, (Driver.start guid).parseFile unit = .ok (commands, d) ∧ d.emit commands = e := by
  unfold compile at h
  split at h
  · next commands d hparse => exact ⟨commands, d, hparse, Option.some.inj h⟩
  · cases h

/-- What the parser accepts is compiled to sound code. -/
theorem Driver.sound_emit {guid : Int} {unit : List CommandTree} {commands : List Command}
    {d : Driver} (hparse : (Driver.start guid).parseFile unit = .ok (commands, d))
    (hexp : ∀ v ∈ Command.exportsAll commands, imports v.guid) (tracked : Bool) :
    SoundProgram imports tracked (d.emit commands) := by
  obtain ⟨fns, hchecked, hknows, houtside⟩ := Driver.parseFile_checked hparse
  have hlocated : ∀ cf ∈ (d.emit commands).functions, cf.LocatedIn (d.emit commands).items 0 :=
    fun cf hcf => by
      simpa [Driver.emit] using
        (Command.located_emitAll commands cf hcf).append (preambleItems commands) [] (by simp)
  -- No function has an address when the parser is done.
  have hw : ∀ lim, Writing (d.emit commands).functions lim fns d := by
    refine fun lim => ⟨houtside, fun e he => .inl ?_⟩
    obtain ⟨s, hs, -, haddr⟩ := hknows.listed e he
    simp [Driver.address, Driver.findFunction, hs, haddr]
  have hsep : Separate (d.emit commands).functions := Command.separate_functionsAll commands
  refine ⟨?_, hlocated, ?_⟩
  · refine sound_preambleItems commands ?_
    rw [← List.append_nil (Command.emitAll true d _ commands).items]
    refine Command.soundAll hsep commands (hw _) (fun cf hcf => ⟨hcf, ?_⟩) hexp hchecked
      (List.Subset.refl _) (.done rfl)
    have := (hlocated cf hcf).finish_le.2.2
    omega
  · exact Command.soundBodiesAll hsep commands (hw _) (fun cf hcf => hcf) hexp hchecked
      (List.Subset.refl _)

end OpenmrnCue.Logic
