import Mathlib.Data.List.Nodup
import OpenmrnCue.Logic.CallChecks
import OpenmrnCue.Logic.Sound

/-! The calls of a program and their addresses.  A function gets its address when its code has been
written, so a call finds it in the symbol table unless the call is in the body of that function, or
the definition is in a conditional, whose code is written to a buffer of its own first. -/

namespace OpenmrnCue.Logic

def Item.site? : Item → Option CallSite
  | callSite site => some site
  | _ => none

/-- The calls in the code, in order. -/
def sites (items : List Item) : List CallSite := items.filterMap Item.site?

@[simp] theorem sites_nil : sites [] = [] := rfl

@[simp] theorem sites_append (items items' : List Item) :
    sites (items ++ items') = sites items ++ sites items' := List.filterMap_append

@[simp] theorem sites_insn (op : OpCode) (items : List Item) :
    sites (.insn op :: items) = sites items := rfl

@[simp] theorem sites_insnArg (op : OpCode) (arg : Int) (items : List Item) :
    sites (.insnArg op arg :: items) = sites items := rfl

@[simp] theorem sites_loadString (text : Bytes) (items : List Item) :
    sites (.loadString text :: items) = sites items := rfl

@[simp] theorem sites_createVar (guid numStates : Int) (items : List Item) :
    sites (.createVar guid numStates :: items) = sites items := rfl

@[simp] theorem sites_callSite (site : CallSite) (items : List Item) :
    sites (.callSite site :: items) = site :: sites items := rfl

@[simp] theorem VariableReference.sites_emitFetch (v : VariableReference) :
    sites v.emitFetch = [] := by cases v <;> rfl

@[simp] theorem VariableReference.sites_emitStore (v : VariableReference) :
    sites v.emitStore = [] := by cases v <;> rfl

@[simp] theorem VariableReference.sites_emitRef (v : VariableReference) :
    sites v.emitRef = [] := by cases v <;> rfl

/-- A call and the functions whose bodies it stands in. -/
structure PlacedCall where
  enclosing : List String
  call : FunctionCall

mutual

/-- The calls of a command, in the order of the code. -/
def Command.calls (enclosing : List String) : Command → List PlacedCall
  | .empty | .printString _ | .terminate | .indirectVarCreate .. => []
  | .commandSequence commands _ _ => Command.callsAll enclosing commands
  | .staticVarCreate _ _ _ _ init => init.calls.map (PlacedCall.mk enclosing)
  | .localVarCreate _ _ _ init => init.calls.map (PlacedCall.mk enclosing)
  | .numericAssignment _ value => value.calls.map (PlacedCall.mk enclosing)
  | .booleanAssignment _ value => value.calls.map (PlacedCall.mk enclosing)
  | .ifThen condition thenCase =>
    condition.calls.map (PlacedCall.mk enclosing) ++ thenCase.calls enclosing
  | .ifThenElse condition thenCase elseCase =>
    condition.calls.map (PlacedCall.mk enclosing) ++ thenCase.calls enclosing ++
      elseCase.calls enclosing
  | .function name _ _ body => Command.callsAll (name :: enclosing) body
  | .functionCall call => (call :: call.argumentCalls).map (PlacedCall.mk enclosing)
  | .printInt value => value.calls.map (PlacedCall.mk enclosing)

def Command.callsAll (enclosing : List String) : List Command → List PlacedCall
  | [] => []
  | c :: cs => c.calls enclosing ++ Command.callsAll enclosing cs

end

mutual

/-- The functions that are defined outside of conditionals and of other functions. -/
def Command.rootFunctions : Command → List String
  | .commandSequence commands _ _ => Command.rootFunctionsAll commands
  | .function name _ _ _ => [name]
  | _ => []

def Command.rootFunctionsAll : List Command → List String
  | [] => []
  | c :: cs => c.rootFunctions ++ Command.rootFunctionsAll cs

end

/-! ### Expressions -/

/-- The mark of a call of a known function. -/
structure Marks (fns : List FunctionEntry) (address : String → Int) (call : FunctionCall)
    (site : CallSite) : Prop where
  known : ∃ e ∈ fns, e.name = call.name
  name : site.name = call.name
  address : site.address = address call.name
  operand : site.operand = call.args.length

section

variable {fns : List FunctionEntry} {n : Nat} (address : String → Int)

mutual

/-- Every call of an expression has one mark in its code. -/
theorem IntExpression.marks : (e : IntExpression) → ∀ (depth : Nat), e.checked fns n →
    List.Forall₂ (Marks fns address) e.calls (sites (e.emit address depth))
  | .intVariable v, _, _ => by simp [IntExpression.calls, IntExpression.emit]
  | .intConstant value, _, _ => by
    simp only [IntExpression.calls, IntExpression.emit]
    split
    · exact .nil
    · split <;> exact .nil
  | .intBinaryExpression op left right, depth, h => by
    simp only [IntExpression.checked, Bool.and_eq_true] at h
    simp only [IntExpression.calls, IntExpression.emit, sites_append, sites_insn, sites_nil,
      List.append_nil]
    exact List.rel_append (left.marks depth h.1) (right.marks _ h.2)
  | .intFunctionCall call, depth, h => call.marks depth h

theorem BooleanExpression.marks : (e : BooleanExpression) → ∀ (depth : Nat), e.checked fns n →
    List.Forall₂ (Marks fns address) e.calls (sites (e.emit address depth))
  | .boolVariable v, _, _ => by simp [BooleanExpression.calls, BooleanExpression.emit]
  | .booleanConstant value, _, _ => .nil
  | .boolFunctionCall call, depth, h => call.marks depth h
  | .boolNot left, depth, h => by
    simpa [BooleanExpression.calls, BooleanExpression.emit] using left.marks depth h
  | .intComp op left right, depth, h => by
    simp only [BooleanExpression.checked, Bool.and_eq_true] at h
    simp only [BooleanExpression.calls, BooleanExpression.emit, sites_append, sites_insn, sites_nil,
      List.append_nil]
    exact List.rel_append (left.marks depth h.1) (right.marks _ h.2)
  | .boolAnd left right, depth, h | .boolOr left right, depth, h | .boolCmp _ left right, depth, h =>
    by
    simp only [BooleanExpression.checked, Bool.and_eq_true] at h
    simp only [BooleanExpression.calls, BooleanExpression.emit, sites_append, sites_insn, sites_nil,
      sites_insnArg, List.append_nil]
    exact List.rel_append (left.marks depth h.1) (right.marks _ h.2)

theorem PolymorphicExpression.marks : (e : PolymorphicExpression) → ∀ (depth : Nat),
    e.checked fns n → List.Forall₂ (Marks fns address) e.calls (sites (e.emit address depth))
  | .boolExpr e, depth, h => e.marks depth h
  | .intExpr e, depth, h => e.marks depth h
  | .var _ v, _, _ => by simp [PolymorphicExpression.calls, PolymorphicExpression.emit]
  | .void, _, _ => .nil

theorem PolymorphicExpression.marksAll : (es : List PolymorphicExpression) → ∀ (depth : Nat),
    PolymorphicExpression.checkedAll fns n es →
    List.Forall₂ (Marks fns address) (PolymorphicExpression.callsAll es)
      (sites (PolymorphicExpression.emitAll address depth es))
  | [], _, _ => .nil
  | e :: es, depth, h => by
    simp only [PolymorphicExpression.checkedAll, Bool.and_eq_true] at h
    simp only [PolymorphicExpression.callsAll, PolymorphicExpression.emitAll, sites_append]
    exact List.rel_append (e.marks depth h.1) (PolymorphicExpression.marksAll es _ h.2)

theorem FunctionCall.marks {retval : Bool} : (call : FunctionCall) → ∀ (depth : Nat),
    call.checked fns n retval →
    List.Forall₂ (Marks fns address) (call :: call.argumentCalls) (sites (call.emit address depth))
  | .mk stackOfs name args needRetval, depth, h => by
    simp only [FunctionCall.checked, Bool.and_eq_true, beq_iff_eq] at h
    obtain ⟨⟨-, hknown⟩, hargs⟩ := h
    obtain ⟨e, he, hname⟩ := List.any_eq_true.mp hknown
    have htail : sites (if needRetval then [] else [.insn .popOp]) = [] := by
      cases needRetval <;> rfl
    simp only [FunctionCall.argumentCalls, FunctionCall.emit, List.cons_append, List.nil_append,
      sites_callSite, sites_insnArg, sites_insn, sites_append, sites_nil, htail, List.append_nil]
    refine .cons ⟨⟨e, he, beq_iff_eq.mp hname⟩, rfl, rfl, rfl⟩ ?_
    exact PolymorphicExpression.marksAll args _ hargs

end

theorem Initializer.marks (init : Initializer) (depth : Nat) (h : init.checked fns n) :
    List.Forall₂ (Marks fns address) init.calls (sites (init.emit address depth)) := by
  cases init with
  | int e => exact e.marks address depth h
  | bool e => exact e.marks address depth h

end

/-! ### The names of functions -/

mutual

/-- No function is defined twice. -/
theorem Command.checked_nodup : (c : Command) → ∀ {root : Bool} {fns fns' : List FunctionEntry}
    {n n' : Nat}, c.checked root fns n = some (fns', n') → (fns.map (·.name)).Nodup →
    (fns'.map (·.name)).Nodup
  | .commandSequence cs _ _, _, _, _, _, _, h, hfns => by
    obtain ⟨n1, hcs, -⟩ := Command.checked_commandSequence h
    exact Command.checkedAll_nodup cs hcs hfns
  | .ifThen _ thenCase, _, _, _, _, _, h, hfns =>
    thenCase.checked_nodup (Command.checked_ifThen h).2.1 hfns
  | .ifThenElse _ thenCase elseCase, _, _, _, _, _, h, hfns => by
    obtain ⟨-, -, fns1, hthen, helse⟩ := Command.checked_ifThenElse h
    exact elseCase.checked_nodup helse (thenCase.checked_nodup hthen hfns)
  | .function name _ args body, _, _, _, _, _, h, hfns => by
    obtain ⟨hnew, -, n1, hbody⟩ := Command.checked_function h
    refine Command.checkedAll_nodup body hbody ?_
    rw [List.map_append, List.map_singleton, List.nodup_append]
    refine ⟨hfns, List.pairwise_singleton _ _, ?_⟩
    rintro a ha b hb rfl
    obtain ⟨e, he, rfl⟩ := List.mem_map.mp ha
    rw [List.any_eq_false] at hnew
    exact hnew e he (by simpa using hb)
  | .empty, _, _, _, _, _, h, hfns | .printString _, _, _, _, _, _, h, hfns
  | .terminate, _, _, _, _, _, h, hfns => by
    cases h
    exact hfns
  | .indirectVarCreate .., _, _, _, _, _, h, hfns | .staticVarCreate .., _, _, _, _, _, h, hfns
  | .localVarCreate .., _, _, _, _, _, h, hfns | .numericAssignment .., _, _, _, _, _, h, hfns
  | .booleanAssignment .., _, _, _, _, _, h, hfns | .functionCall _, _, _, _, _, _, h, hfns
  | .printInt _, _, _, _, _, _, h, hfns => by
    obtain ⟨-, h⟩ := Option.ite_none_right_eq_some.mp h
    cases h
    exact hfns

theorem Command.checkedAll_nodup : (cs : List Command) → ∀ {root : Bool}
    {fns fns' : List FunctionEntry} {n n' : Nat},
    Command.checkedAll root fns n cs = some (fns', n') → (fns.map (·.name)).Nodup →
    (fns'.map (·.name)).Nodup
  | [], _, _, _, _, _, h, hfns => by
    cases h
    exact hfns
  | c :: cs, _, _, _, _, _, h, hfns => by
    obtain ⟨fns1, n1, hc, hcs⟩ := Command.checkedAll_cons h
    exact Command.checkedAll_nodup cs hcs (c.checked_nodup hc hfns)

end

mutual

/-- A function that is defined outside of conditionals is marked so. -/
theorem Command.checked_rootFunctions : (c : Command) → ∀ {fns fns' : List FunctionEntry}
    {n n' : Nat}, c.checked true fns n = some (fns', n') →
    ∀ name ∈ c.rootFunctions, ∃ e ∈ fns', e.name = name ∧ e.atRoot = true
  | .commandSequence cs _ _, _, _, _, _, h, name, hname => by
    obtain ⟨n1, hcs, -⟩ := Command.checked_commandSequence h
    exact Command.checkedAll_rootFunctions cs hcs name hname
  | .function _ _ args body, _, _, _, _, h, name, hname => by
    obtain ⟨-, -, n1, hbody⟩ := Command.checked_function h
    obtain rfl := List.mem_singleton.mp hname
    exact ⟨⟨name, args, true⟩, Command.checkedAll_subset body hbody (by simp), rfl, rfl⟩
  | .empty, _, _, _, _, _, _, h | .printString _, _, _, _, _, _, _, h
  | .terminate, _, _, _, _, _, _, h | .indirectVarCreate .., _, _, _, _, _, _, h
  | .staticVarCreate .., _, _, _, _, _, _, h | .localVarCreate .., _, _, _, _, _, _, h
  | .numericAssignment .., _, _, _, _, _, _, h | .booleanAssignment .., _, _, _, _, _, _, h
  | .ifThen .., _, _, _, _, _, _, h | .ifThenElse .., _, _, _, _, _, _, h
  | .functionCall _, _, _, _, _, _, _, h | .printInt _, _, _, _, _, _, _, h => by cases h

theorem Command.checkedAll_rootFunctions : (cs : List Command) →
    ∀ {fns fns' : List FunctionEntry} {n n' : Nat},
    Command.checkedAll true fns n cs = some (fns', n') →
    ∀ name ∈ Command.rootFunctionsAll cs, ∃ e ∈ fns', e.name = name ∧ e.atRoot = true
  | [], _, _, _, _, _, _, h => by cases h
  | c :: cs, _, _, _, _, h, name, hname => by
    obtain ⟨fns1, n1, hc, hcs⟩ := Command.checkedAll_cons h
    rcases List.mem_append.mp hname with hname | hname
    · obtain ⟨e, he, hroot⟩ := c.checked_rootFunctions hc name hname
      exact ⟨e, Command.checkedAll_subset cs hcs he, hroot⟩
    · exact Command.checkedAll_rootFunctions cs hcs name hname

end

/-! ### The addresses of calls -/

/-- The address of a site is that of a function of its name. -/
def CallSite.Reaches (T : List CompiledFunction) (site : CallSite) : Prop :=
  ∃ cf ∈ T, cf.name = site.name ∧ (cf.address : Int) = site.address

/-- The mark of a call, and when its address is right. -/
structure Resolves (T : List CompiledFunction) (roots : List String) (p : PlacedCall)
    (site : CallSite) : Prop where
  name : site.name = p.call.name
  operand : site.operand = p.call.args.length
  address : site.address = -1 ∨ site.Reaches T
  reaches : site.Reaches T ↔ p.call.name ∈ roots ∧ p.call.name ∉ p.enclosing

/-- The driver while the code is written: the functions `fns` of the program's `F` are known, and
those of `done` have an address. -/
structure Progress (T : List CompiledFunction) (F : List FunctionEntry) (roots : List String)
    (fns : List FunctionEntry) (done enclosing : List String) (d : Driver) : Prop where
  outside : d.inFunction = false
  found : ∀ e ∈ F, (d.findFunction e.name).isSome = true
  registered : ∀ e ∈ F, e.name ∈ done →
    ∃ cf ∈ T, cf.name = e.name ∧ (cf.address : Int) = d.address e.name
  pending : ∀ e ∈ F, e.name ∉ done → d.address e.name = -1
  done_iff : ∀ e ∈ fns, e.name ∈ done ↔ e.name ∈ roots ∧ e.name ∉ enclosing
  known : ∀ name, name ∈ done ∨ name ∈ enclosing → ∃ e ∈ fns, e.name = name

section

variable {T : List CompiledFunction} {F : List FunctionEntry} {roots : List String}

theorem Progress.resolves {fns : List FunctionEntry} {done enclosing : List String} {d : Driver}
    (h : Progress T F roots fns done enclosing d) (hsub : fns ⊆ F) {call : FunctionCall}
    {site : CallSite} (hm : Marks fns d.address call site) :
    Resolves T roots ⟨enclosing, call⟩ site := by
  obtain ⟨e, he, hname⟩ := hm.known
  have hiff := h.done_iff e he
  by_cases hdone : e.name ∈ done
  · obtain ⟨cf, hcf, hcfname, haddr⟩ := h.registered e (hsub he) hdone
    have hreaches : site.Reaches T :=
      ⟨cf, hcf, by rw [hcfname, hname, hm.name], by rw [haddr, hname, hm.address]⟩
    rw [hname] at hiff hdone
    exact ⟨hm.name, hm.operand, .inr hreaches, iff_of_true hreaches (hiff.mp hdone)⟩
  · have haddr := h.pending e (hsub he) hdone
    rw [hname, ← hm.address] at haddr
    rw [hname] at hiff hdone
    refine ⟨hm.name, hm.operand, .inl haddr, iff_of_false ?_ (hdone ∘ hiff.mpr)⟩
    rintro ⟨cf, -, -, hcf⟩
    omega

theorem Progress.resolvesAll {fns : List FunctionEntry} {done enclosing : List String} {d : Driver}
    (h : Progress T F roots fns done enclosing d) (hsub : fns ⊆ F) {calls : List FunctionCall}
    {marks : List CallSite} (hm : List.Forall₂ (Marks fns d.address) calls marks) :
    List.Forall₂ (Resolves T roots) (calls.map (PlacedCall.mk enclosing)) marks :=
  List.forall₂_map_left_iff.mpr (hm.imp fun _ _ => h.resolves hsub)

theorem Progress.unchanged {fns : List FunctionEntry} {done enclosing new : List String} {d : Driver}
    (h : Progress T F roots fns done enclosing d) (hnew : new = []) :
    Progress T F roots fns (done ++ new) enclosing d := by
  simpa [hnew] using h

/-- Inside of the body of a function. -/
theorem Progress.enter {fns : List FunctionEntry} {done enclosing : List String} {d : Driver}
    (h : Progress T F roots fns done enclosing d) {new : FunctionEntry}
    (hnew : ∀ e ∈ fns, e.name ≠ new.name) :
    Progress T F roots (fns ++ [new]) done (new.name :: enclosing) d := by
  refine ⟨h.outside, h.found, h.registered, h.pending, fun e he => ?_, fun name hname => ?_⟩
  · rcases List.mem_append.mp he with he | he
    · simp [h.done_iff e he, hnew e he]
    · obtain rfl := List.mem_singleton.mp he
      refine iff_of_false (fun hdone => ?_) (by simp)
      obtain ⟨e', he', hname⟩ := h.known _ (.inl hdone)
      exact hnew e' he' hname
  · rcases hname with hname | hname
    · obtain ⟨e, he, rfl⟩ := h.known name (.inl hname)
      exact ⟨e, List.mem_append_left _ he, rfl⟩
    · rcases List.mem_cons.mp hname with rfl | hname
      · exact ⟨new, by simp, rfl⟩
      · obtain ⟨e, he, rfl⟩ := h.known name (.inr hname)
        exact ⟨e, List.mem_append_left _ he, rfl⟩

/-- After a definition.  `new` is the entry of the function, which is not known outside of it. -/
theorem Progress.register {fns fns' : List FunctionEntry} {done enclosing : List String}
    {d0 d : Driver} {new : FunctionEntry} {start : Nat}
    (h0 : Progress T F roots fns done enclosing d0)
    (h : Progress T F roots fns' done (new.name :: enclosing) d)
    (hnew : ∀ e ∈ fns, e.name ≠ new.name) (hmem : new ∈ fns') (hF : new ∈ F)
    (hroots : new.name ∈ roots ↔ new.atRoot = true)
    (hcf : new.atRoot = true → ∃ cf ∈ T, cf.name = new.name ∧ cf.address = start) :
    Progress T F roots fns' (done ++ if new.atRoot then [new.name] else []) enclosing
      (d.registerFunction new.name new.atRoot start) := by
  have hfresh : new.name ∉ done ∧ new.name ∉ enclosing := by
    constructor
    · intro hdone
      obtain ⟨e, he, hname⟩ := h0.known _ (.inl hdone)
      exact hnew e he hname
    · intro henc
      obtain ⟨e, he, hname⟩ := h0.known _ (.inr henc)
      exact hnew e he hname
  have hfound := h.found new hF
  refine ⟨by rw [d.inFunction_registerFunction, h.outside], fun e he => ?_, fun e he hdone => ?_,
    fun e he hdone => ?_, fun e he => ?_, fun name hname => ?_⟩
  · rw [Driver.findFunction_registerFunction h.outside]
    split
    · simpa using h.found e he
    · exact h.found e he
  · rw [Driver.address_registerFunction h.outside]
    split
    · next hroot =>
      obtain ⟨cf, hmemT, hcfname, haddr⟩ := hcf hroot.1
      exact ⟨cf, hmemT, by rw [hcfname, hroot.2.1], by rw [haddr]⟩
    · next hroot =>
      refine h.registered e he ?_
      rcases List.mem_append.mp hdone with hdone | hdone
      · exact hdone
      · split at hdone
        · next hat => exact absurd ⟨hat, List.mem_singleton.mp hdone, hfound⟩ hroot
        · cases hdone
  · rw [Driver.address_registerFunction h.outside, if_neg]
    · exact h.pending e he fun hin => hdone (List.mem_append_left _ hin)
    · rintro ⟨hat, hname, -⟩
      exact hdone (List.mem_append_right _ (by simp [hat, hname]))
  · by_cases hname : e.name = new.name
    · rw [hname, hroots]
      cases new.atRoot <;> simp [hfresh.1, hfresh.2]
    · have hiff := h.done_iff e he
      rw [List.mem_cons] at hiff
      have hnot : e.name ∉ (if new.atRoot then [new.name] else []) := by
        split <;> simp [hname]
      rw [List.mem_append, hiff]
      simp [hname, hnot]
  · rcases hname with hname | hname
    · rcases List.mem_append.mp hname with hname | hname
      · exact h.known name (.inl hname)
      · split at hname
        · exact ⟨new, hmem, (List.mem_singleton.mp hname).symm⟩
        · cases hname
    · exact h.known name (.inr (List.mem_cons_of_mem _ hname))

/-- The functions that the code of a command adds to those that have an address. -/
def Command.finished (root : Bool) (c : Command) : List String :=
  if root then c.rootFunctions else []

variable (hunique : (F.map (·.name)).Nodup)
  (hroots : ∀ name ∈ roots, ∃ e ∈ F, e.name = name ∧ e.atRoot = true)
include hunique hroots

set_option linter.unusedSectionVars false

theorem mem_roots_iff {new : FunctionEntry} (hF : new ∈ F)
    (hroot : new.atRoot = true → new.name ∈ roots) : new.name ∈ roots ↔ new.atRoot = true := by
  refine ⟨fun hname => ?_, hroot⟩
  obtain ⟨e, he, hname, hat⟩ := hroots _ hname
  obtain rfl := List.inj_on_of_nodup_map hunique he hF hname
  exact hat

mutual

/-- Every call of a command has one mark in its code. -/
theorem Command.resolves : (c : Command) → ∀ {root : Bool} {d : Driver} {ofs : Nat}
    {fns fns' : List FunctionEntry} {n n' : Nat} {done enclosing : List String},
    Progress T F roots fns done enclosing d → c.checked root fns n = some (fns', n') → fns' ⊆ F →
    (root = true → c.rootFunctions ⊆ roots) → (∀ cf ∈ (c.emit root d ofs).functions, cf ∈ T) →
    Progress T F roots fns' (done ++ c.finished root) enclosing (c.emit root d ofs).driver ∧
      List.Forall₂ (Resolves T roots) (c.calls enclosing) (sites (c.emit root d ofs).items)
  | .empty, root, _, _, _, _, _, _, _, _, hp, h, _, _, _
  | .printString _, root, _, _, _, _, _, _, _, _, hp, h, _, _, _
  | .terminate, root, _, _, _, _, _, _, _, _, hp, h, _, _, _ => by
    cases h
    exact ⟨hp.unchanged (by cases root <;> rfl), .nil⟩
  | .indirectVarCreate .., root, _, _, _, _, _, _, _, _, hp, h, _, _, _ => by
    obtain ⟨-, h⟩ := Option.ite_none_right_eq_some.mp h
    cases h
    exact ⟨hp.unchanged (by cases root <;> rfl), .nil⟩
  | .staticVarCreate name _ _ fpOffset init, root, d, _, _, _, _, _, _, _, hp, h, hsub, _, _ => by
    obtain ⟨⟨-, hinit⟩, h⟩ := Option.ite_none_right_eq_some.mp h
    cases h
    refine ⟨hp.unchanged (by cases root <;> rfl), ?_⟩
    simpa [Command.calls, Command.emit, Emitted.plain] using
      hp.resolvesAll hsub (init.marks d.address 1 hinit)
  | .localVarCreate _ _ _ init, root, d, _, _, _, _, _, _, _, hp, h, hsub, _, _ => by
    obtain ⟨⟨-, hinit⟩, h⟩ := Option.ite_none_right_eq_some.mp h
    cases h
    exact ⟨hp.unchanged (by cases root <;> rfl), hp.resolvesAll hsub (init.marks d.address 0 hinit)⟩
  | .numericAssignment _ value, root, d, _, _, _, _, _, _, _, hp, h, hsub, _, _ => by
    obtain ⟨hvalue, h⟩ := Option.ite_none_right_eq_some.mp h
    cases h
    refine ⟨hp.unchanged (by cases root <;> rfl), ?_⟩
    simpa [Command.calls, Command.emit, Emitted.plain] using
      hp.resolvesAll hsub (value.marks d.address 0 hvalue)
  | .booleanAssignment _ value, root, d, _, _, _, _, _, _, _, hp, h, hsub, _, _ => by
    obtain ⟨hvalue, h⟩ := Option.ite_none_right_eq_some.mp h
    cases h
    refine ⟨hp.unchanged (by cases root <;> rfl), ?_⟩
    simpa [Command.calls, Command.emit, Emitted.plain] using
      hp.resolvesAll hsub (value.marks d.address 0 hvalue)
  | .printInt value, root, d, _, _, _, _, _, _, _, hp, h, hsub, _, _ => by
    obtain ⟨hvalue, h⟩ := Option.ite_none_right_eq_some.mp h
    cases h
    refine ⟨hp.unchanged (by cases root <;> rfl), ?_⟩
    simpa [Command.calls, Command.emit, Emitted.plain] using
      hp.resolvesAll hsub (value.marks d.address 0 hvalue)
  | .functionCall call, root, d, _, _, _, _, _, _, _, hp, h, hsub, _, _ => by
    obtain ⟨hcall, h⟩ := Option.ite_none_right_eq_some.mp h
    cases h
    exact ⟨hp.unchanged (by cases root <;> rfl), hp.resolvesAll hsub (call.marks d.address 0 hcall)⟩
  | .commandSequence cs trimFrom trimTo, root, d, ofs, _, _, _, _, _, _, hp, h, hsub, hr, hT => by
    obtain ⟨n1, hcs, -⟩ := Command.checked_commandSequence h
    obtain ⟨hp1, hm⟩ := Command.resolvesAll cs hp hcs hsub hr hT
    refine ⟨hp1, ?_⟩
    have htail : sites (if 0 ≤ trimFrom then .insnArg .checkStackLength trimFrom ::
        if 0 ≤ trimTo then [.insnArg .leave (trimFrom - trimTo)] else [] else []) = [] := by
      split
      · split <;> rfl
      · rfl
    simpa [Command.calls, Command.emit, htail] using hm
  | .ifThen condition thenCase, root, d, ofs, _, _, _, _, _, _, hp, h, hsub, _, _ => by
    obtain ⟨hcond, hthen, -⟩ := Command.checked_ifThen h
    obtain ⟨hp1, hm⟩ := thenCase.resolves hp hthen hsub nofun
      (by simp [Command.functions_emit])
    have hm0 := hp.resolvesAll (List.Subset.trans (thenCase.checked_subset hthen) hsub)
      (condition.marks d.address 0 hcond)
    refine ⟨by cases root <;>
      simpa [Command.finished, Command.rootFunctions, Command.emit] using hp1, ?_⟩
    simpa [Command.calls, Command.emit] using List.rel_append hm0 hm
  | .ifThenElse condition thenCase elseCase, root, d, ofs, _, _, _, _, _, _, hp, h, hsub, _, _ => by
    obtain ⟨hcond, -, fns1, hthen, helse⟩ := Command.checked_ifThenElse h
    have hsub1 := List.Subset.trans (elseCase.checked_subset helse) hsub
    obtain ⟨hp1, hm1⟩ := thenCase.resolves hp hthen hsub1 nofun
      (by simp [Command.functions_emit])
    obtain ⟨hp2, hm2⟩ := elseCase.resolves hp1 helse hsub nofun
      (by simp [Command.functions_emit])
    have hm0 := hp.resolvesAll (List.Subset.trans (thenCase.checked_subset hthen) hsub1)
      (condition.marks d.address 0 hcond)
    refine ⟨by cases root <;>
      simpa [Command.finished, Command.rootFunctions, Command.emit] using hp2, ?_⟩
    simpa [Command.calls, Command.emit] using
      List.rel_append (List.rel_append hm0 hm1) hm2
  | .function name _ args body, root, d, ofs, fns, fns', _, _, done, enclosing, hp, h, hsub, hr,
      hT => by
    obtain ⟨hnew, -, n1, hbody⟩ := Command.checked_function h
    have hfresh : ∀ e ∈ fns, e.name ≠ name := by
      simpa using hnew
    have hmem : ⟨name, args, root⟩ ∈ fns' := Command.checkedAll_subset body hbody (by simp)
    obtain ⟨hp1, hm⟩ := Command.resolvesAll body
      (hp.enter hfresh) hbody hsub nofun
      (by simp [Command.functions_emitAll])
    have hiff : name ∈ roots ↔ root = true :=
      mem_roots_iff hunique hroots (hsub hmem)
        fun hroot => hr hroot (List.mem_singleton_self _)
    refine ⟨?_, by simpa [Command.calls, Command.emit] using hm⟩
    refine hp.register (by simpa using hp1) hfresh hmem (hsub hmem) hiff
      fun hroot => ?_
    simp only at hroot
    subst hroot
    exact ⟨_, hT _ (List.mem_singleton_self _), rfl, rfl⟩

theorem Command.resolvesAll : (cs : List Command) → ∀ {root : Bool} {d : Driver} {ofs : Nat}
    {fns fns' : List FunctionEntry} {n n' : Nat} {done enclosing : List String},
    Progress T F roots fns done enclosing d →
    Command.checkedAll root fns n cs = some (fns', n') → fns' ⊆ F →
    (root = true → Command.rootFunctionsAll cs ⊆ roots) →
    (∀ cf ∈ (Command.emitAll root d ofs cs).functions, cf ∈ T) →
    Progress T F roots fns' (done ++ if root then Command.rootFunctionsAll cs else []) enclosing
        (Command.emitAll root d ofs cs).driver ∧
      List.Forall₂ (Resolves T roots) (Command.callsAll enclosing cs)
        (sites (Command.emitAll root d ofs cs).items)
  | [], root, _, _, _, _, _, _, _, _, hp, h, _, _, _ => by
    cases h
    exact ⟨hp.unchanged (by cases root <;> rfl), .nil⟩
  | c :: cs, root, d, ofs, _, _, _, _, _, _, hp, h, hsub, hr, hT => by
    obtain ⟨fns1, n1, hc, hcs⟩ := Command.checkedAll_cons h
    obtain ⟨hp1, hm1⟩ := c.resolves hp hc
      (List.Subset.trans (Command.checkedAll_subset cs hcs) hsub)
      (fun hroot => List.Subset.trans (List.subset_append_left _ _) (hr hroot))
      (fun cf hcf => hT cf (List.mem_append_left _ hcf))
    obtain ⟨hp2, hm2⟩ := Command.resolvesAll cs hp1 hcs hsub
      (fun hroot => List.Subset.trans (List.subset_append_right _ _) (hr hroot))
      (fun cf hcf => hT cf (List.mem_append_right _ hcf))
    refine ⟨?_, ?_⟩
    · cases root <;>
        simpa [Command.finished, Command.rootFunctionsAll, Command.emitAll] using hp2
    · simp only [Command.callsAll, Command.emitAll, sites_append]
      exact List.rel_append hm1 hm2

end

end

/-- The preamble has no calls. -/
theorem sites_preambleItems (commands : List Command) : sites (preambleItems commands) = [] := by
  have hpreamble : sites (commands.flatMap Command.emitPreamble) = [] := by
    induction commands with
    | nil => rfl
    | cons c cs ih =>
      rw [List.flatMap_cons, sites_append, ih]
      cases c <;> rfl
  simp [preambleItems, hpreamble]

/-- The calls of a program that the parser accepts, with their marks in the code. -/
theorem Driver.resolves_emit {guid : Int} {unit : List CommandTree} {commands : List Command}
    {d : Driver} (hparse : (Driver.start guid).parseFile unit = .ok (commands, d)) :
    List.Forall₂ (Resolves (d.emit commands).functions (Command.rootFunctionsAll commands))
      (Command.callsAll [] commands) (sites (d.emit commands).items) := by
  obtain ⟨F, hchecked, hknows, houtside⟩ := Driver.parseFile_checked hparse
  have hp : Progress (d.emit commands).functions F (Command.rootFunctionsAll commands) [] [] []
      d := by
    refine ⟨houtside, fun e he => ?_, by simp, fun e he _ => ?_, by simp, by simp⟩
    · obtain ⟨s, hs, -⟩ := hknows.listed e he
      simp [Driver.findFunction, hs]
    · obtain ⟨s, hs, -, haddr⟩ := hknows.listed e he
      simp [Driver.address, Driver.findFunction, hs, haddr]
  obtain ⟨-, hm⟩ := Command.resolvesAll (Command.checkedAll_nodup commands hchecked List.nodup_nil)
    (Command.checkedAll_rootFunctions commands hchecked) commands hp hchecked
    (List.Subset.refl _) (fun _ => List.Subset.refl _) fun cf hcf => hcf
  simpa [Driver.emit, sites_preambleItems] using hm

/-- The body of the function is in the code at its address. -/
def CompiledFunction.At (code : Bytes) (cf : CompiledFunction) : Prop :=
  ∃ pre post, code = pre ++ itemBytes cf.body ++ post ∧ cf.address = pre.length

/-- The functions of a program are in its code. -/
theorem Driver.at_of_mem_functions {d : Driver} {commands : List Command} {cf : CompiledFunction}
    (hcf : cf ∈ (d.emit commands).functions) : cf.At (d.serialize commands).1 := by
  have hlocated : cf.LocatedIn (preambleItems commands ++ (Command.emitAll true d
      (itemBytes (preambleItems commands)).length commands).items ++ []) 0 :=
    (Command.located_emitAll commands cf hcf).append (preambleItems commands) [] (by simp)
  obtain ⟨pre, post, hitems, haddr, -⟩ := hlocated
  refine ⟨itemBytes pre, itemBytes post, ?_, by omega⟩
  rw [Driver.serialize_eq_emit, ← itemBytes_append, ← itemBytes_append, ← hitems]
  simp [Driver.emit]

/-- `int f() { return_value = 1; } int x; x = f();` -/
def laterCall : List CommandTree :=
  [.function .localVar .int "f" [] [.assignInt "return_value" (.number 1)],
    .variableDecl .localVar .int ⟨"x", [], .none⟩ [] true,
    .assignInt "x" (.intFunction "f" [])]

/-- `void f() { f(); }` -/
def selfCall : List CommandTree := [.function .localVar .void "f" [] [.fncall "f" []]]

mutual

theorem Command.mem_calls : (c : Command) → ∀ {enclosing : List String} {p : PlacedCall},
    p ∈ c.calls enclosing → p.call ∈ c.statementCalls ++ c.innerCalls
  | .commandSequence cs _ _, _, _, h => Command.mem_callsAll cs h
  | .function _ _ _ body, _, _, h => Command.mem_callsAll body h
  | .ifThen condition thenCase, _, p, h => by
    simp only [Command.calls, List.mem_append, List.mem_map] at h
    rcases h with ⟨call, hcall, rfl⟩ | h
    · simp [Command.innerCalls, hcall]
    · have := thenCase.mem_calls h
      simp only [Command.statementCalls, Command.innerCalls, List.mem_append] at this ⊢
      tauto
  | .ifThenElse condition thenCase elseCase, _, p, h => by
    simp only [Command.calls, List.mem_append, List.mem_map] at h
    rcases h with (⟨call, hcall, rfl⟩ | h) | h
    · simp [Command.innerCalls, hcall]
    · have := thenCase.mem_calls h
      simp only [Command.statementCalls, Command.innerCalls, List.mem_append] at this ⊢
      tauto
    · have := elseCase.mem_calls h
      simp only [Command.statementCalls, Command.innerCalls, List.mem_append] at this ⊢
      tauto
  | .functionCall call, _, p, h => by
    obtain ⟨call', hcall, rfl⟩ := List.mem_map.mp h
    simpa [Command.statementCalls, Command.innerCalls] using hcall
  | .staticVarCreate .., _, p, h | .localVarCreate .., _, p, h | .numericAssignment .., _, p, h
  | .booleanAssignment .., _, p, h | .printInt _, _, p, h => by
    obtain ⟨call, hcall, rfl⟩ := List.mem_map.mp h
    simpa [Command.statementCalls, Command.innerCalls] using hcall
  | .empty, _, _, h | .printString _, _, _, h | .terminate, _, _, h
  | .indirectVarCreate .., _, _, h => by cases h

theorem Command.mem_callsAll : (cs : List Command) → ∀ {enclosing : List String} {p : PlacedCall},
    p ∈ Command.callsAll enclosing cs →
    p.call ∈ Command.statementCallsAll cs ++ Command.innerCallsAll cs
  | [], _, _, h => by cases h
  | c :: cs, _, p, h => by
    simp only [Command.statementCallsAll, Command.innerCallsAll, List.mem_append]
    rcases List.mem_append.mp h with h | h
    · have := List.mem_append.mp (c.mem_calls h)
      tauto
    · have := List.mem_append.mp (Command.mem_callsAll cs h)
      tauto

end

mutual

/-- A function in the code has the parameters of its definition. -/
theorem Command.definition_mem : (c : Command) → ∀ {root : Bool} {d : Driver} {ofs : Nat},
    ∀ cf ∈ (c.emit root d ofs).functions, (cf.name, cf.args) ∈ c.definitions
  | .commandSequence cs _ _, _, _, _, cf, hcf => Command.definition_memAll cs cf hcf
  | .function name _ args body, root, d, ofs, cf, hcf => by
    simp only [Command.emit] at hcf
    cases root with
    | false => simp at hcf
    | true =>
      obtain rfl := List.mem_singleton.mp hcf
      exact List.mem_cons_self
  | .empty, _, _, _, _, h | .indirectVarCreate .., _, _, _, _, h
  | .staticVarCreate .., _, _, _, _, h | .localVarCreate .., _, _, _, _, h
  | .numericAssignment .., _, _, _, _, h | .booleanAssignment .., _, _, _, _, h
  | .ifThen .., _, _, _, _, h | .ifThenElse .., _, _, _, _, h | .functionCall _, _, _, _, _, h
  | .printString _, _, _, _, _, h | .printInt _, _, _, _, _, h | .terminate, _, _, _, _, h => by
    cases h

theorem Command.definition_memAll : (cs : List Command) → ∀ {root : Bool} {d : Driver} {ofs : Nat},
    ∀ cf ∈ (Command.emitAll root d ofs cs).functions,
      (cf.name, cf.args) ∈ Command.definitionsAll cs
  | [], _, _, _, _, h => by cases h
  | c :: cs, _, _, _, cf, hcf => by
    rcases List.mem_append.mp hcf with hcf | hcf
    · exact List.mem_append_left _ (c.definition_mem cf hcf)
    · exact List.mem_append_right _ (Command.definition_memAll cs cf hcf)

end

/-- A function has one definition. -/
theorem Driver.definition_unique {guid : Int} {unit : List CommandTree} {commands : List Command}
    {d : Driver} (hparse : (Driver.start guid).parseFile unit = .ok (commands, d)) {name : String}
    {args args' : List FunctionArgument} (h : (name, args) ∈ Command.definitionsAll commands)
    (h' : (name, args') ∈ Command.definitionsAll commands) : args = args' := by
  obtain ⟨F, hchecked, -⟩ := Driver.parseFile_checked hparse
  have hnodup := Command.checkedAll_nodup commands hchecked List.nodup_nil
  have hdefs := Command.checkedAll_definitions commands hchecked
  rw [List.map_nil, List.nil_append] at hdefs
  rw [← hdefs] at h h'
  obtain ⟨e, he, hdef⟩ := List.mem_map.mp h
  obtain ⟨e', he', hdef'⟩ := List.mem_map.mp h'
  obtain ⟨hname, rfl⟩ := Prod.mk.inj hdef
  obtain ⟨hname', rfl⟩ := Prod.mk.inj hdef'
  obtain rfl := List.inj_on_of_nodup_map hnodup he he' (hname.trans hname'.symm)
  rfl

theorem exists_of_forall₂ {α β : Type} {R : α → β → Prop} {l : List α} {l' : List β}
    (h : List.Forall₂ R l l') {b : β} (hb : b ∈ l') : ∃ a ∈ l, R a b := by
  induction h with
  | nil => cases hb
  | @cons a b' l l' hr _ ih =>
    rcases List.mem_cons.mp hb with rfl | hb
    · exact ⟨a, List.mem_cons_self, hr⟩
    · obtain ⟨a', ha', hr'⟩ := ih hb
      exact ⟨a', List.mem_cons_of_mem _ ha', hr'⟩

/-- A call in the code enters, if any, a body for its number of arguments. -/
theorem Driver.operand_of_matches {guid : Int} {unit : List CommandTree} {commands : List Command}
    {d : Driver} (hparse : (Driver.start guid).parseFile unit = .ok (commands, d))
    (hmatch : ∀ call ∈ Command.statementCallsAll commands ++ Command.innerCallsAll commands,
      call.Matches (Command.definitionsAll commands)) {site : CallSite}
    (hsite : site ∈ sites (d.emit commands).items) {cf : CompiledFunction}
    (hcf : cf ∈ (d.emit commands).functions) (haddr : (cf.address : Int) = site.address) :
    cf.args.length = site.operand := by
  obtain ⟨p, hp, hr⟩ := exists_of_forall₂ (Driver.resolves_emit hparse) hsite
  obtain ⟨formals, hformals, hargs⟩ := hmatch p.call (Command.mem_callsAll commands hp)
  rcases hr.address with hnone | ⟨cf', hcf', hname', haddr'⟩
  · omega
  · obtain rfl := Command.separate_functionsAll commands cf hcf cf' hcf' (by omega)
    have hdef := Command.definition_memAll commands cf hcf
    rw [hname', hr.name] at hdef
    rw [Driver.definition_unique hparse hdef hformals, hr.operand]
    exact List.Forall₂.length_eq hargs

/-- `int f(int a) { return_value = a; } int x; x = f(1);` -/
def matchingCall : List CommandTree :=
  [.function .localVar .int "f" [⟨false, .int, "a"⟩] [.assignInt "return_value" (.intVar "a")],
    .variableDecl .localVar .int ⟨"x", [], .none⟩ [] true,
    .assignInt "x" (.intFunction "f" [.exp (.number 1)])]

/-- `int f(int a) { return_value = a; } int x; x = f(1, 2);` -/
def mismatchedCall : List CommandTree :=
  [.function .localVar .int "f" [⟨false, .int, "a"⟩] [.assignInt "return_value" (.intVar "a")],
    .variableDecl .localVar .int ⟨"x", [], .none⟩ [] true,
    .assignInt "x" (.intFunction "f" [.exp (.number 1), .exp (.number 2)])]

end OpenmrnCue.Logic
