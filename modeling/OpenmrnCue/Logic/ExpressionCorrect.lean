import OpenmrnCue.Logic.Execution
import OpenmrnCue.Logic.Semantics
import Mathlib.Data.List.Forall2

/-! The virtual machine computes the value of a compiled expression: what a machine state says about
the state of an evaluation, and how the code of an expression runs from there. -/

namespace OpenmrnCue.Logic

/-! ### The scope of an evaluation -/

def Slot.access : Slot → Access
  | value _ => .localVar
  | static _ => .indirectVar

/-- The variables in scope, without their values. -/
def EvalState.scope (s : EvalState) : Scope := s.env.map fun e => (e.1, e.2.access)

theorem Scope.declare_eq_some {g g' : Scope} {name : String} {access : Access} {fpOffset : Int}
    (h : g.declare name access fpOffset = some g') :
    fpOffset = g.length ∧ (∀ e ∈ g, e.1 ≠ name) ∧ g' = g ++ [(name, access)] := by
  unfold Scope.declare at h
  split at h
  · next hd => exact ⟨hd.1, hd.2, (Option.some.inj h).symm⟩
  · cases h

/-- A sequence is a list of declarations or a braced block. -/
theorem Command.scope_commandSequence {g g' : Scope} {cs : List Command} {trimFrom trimTo : Int}
    (h : (Command.commandSequence cs trimFrom trimTo).scope g = some g') :
    ∃ g1, Command.scopeAll g cs = some g1 ∧
      ((trimFrom = -1 ∧ trimTo = -1 ∧ g' = g1) ∨
        (trimFrom = g1.length ∧ trimTo = (if g1.length = g.length then -1 else (g.length : Int)) ∧
          g' = g)) := by
  simp only [Command.scope, bind, Option.bind_eq_some_iff] at h
  obtain ⟨g1, hcs, h⟩ := h
  refine ⟨g1, hcs, ?_⟩
  by_cases hlist : trimFrom = -1 ∧ trimTo = -1
  · rw [if_pos hlist] at h
    exact .inl ⟨hlist.1, hlist.2, (Option.some.inj h).symm⟩
  · rw [if_neg hlist] at h
    obtain ⟨hbraced, h⟩ := Option.ite_none_right_eq_some.mp h
    exact .inr ⟨hbraced.1, hbraced.2, (Option.some.inj h).symm⟩

theorem Command.scope_ifThen {g g' : Scope} {condition : BooleanExpression} {thenCase : Command}
    (h : (Command.ifThen condition thenCase).scope g = some g') :
    condition.inScope g ∧ thenCase.scope g = some g ∧ g' = g := by
  obtain ⟨hc, h⟩ := Option.ite_none_right_eq_some.mp h
  simp only [Bool.and_eq_true, beq_iff_eq] at hc
  exact ⟨hc.1, hc.2, (Option.some.inj h).symm⟩

theorem Command.scope_ifThenElse {g g' : Scope} {condition : BooleanExpression}
    {thenCase elseCase : Command}
    (h : (Command.ifThenElse condition thenCase elseCase).scope g = some g') :
    condition.inScope g ∧ thenCase.scope g = some g ∧ elseCase.scope g = some g ∧ g' = g := by
  obtain ⟨hc, h⟩ := Option.ite_none_right_eq_some.mp h
  simp only [Bool.and_eq_true, beq_iff_eq] at hc
  exact ⟨hc.1.1, hc.1.2, hc.2, (Option.some.inj h).symm⟩

mutual

/-- A command declares variables at the end of the scope, or none. -/
theorem Command.scope_extends {g g' : Scope} : (c : Command) → c.scope g = some g' → g <+: g'
  | .empty, h | .printString _, h | .terminate, h => by
    cases h
    exact List.prefix_rfl
  | .commandSequence cs _ _, h => by
    obtain ⟨g1, hcs, ⟨-, -, rfl⟩ | ⟨-, -, rfl⟩⟩ := Command.scope_commandSequence h
    · exact Command.scopeAll_extends cs hcs
    · exact List.prefix_rfl
  | .staticVarCreate .., h | .localVarCreate .., h => by
    simp only [Command.scope] at h
    split at h
    · obtain ⟨-, -, rfl⟩ := Scope.declare_eq_some h
      exact List.prefix_append _ _
    · cases h
  | .numericAssignment .., h | .booleanAssignment .., h | .ifThen .., h | .ifThenElse .., h
  | .printInt _, h => by
    simp only [Command.scope] at h
    split at h <;> cases h
    exact List.prefix_rfl
  | .indirectVarCreate .., h | .function .., h | .functionCall _, h => by cases h

theorem Command.scopeAll_extends {g g' : Scope} :
    (cs : List Command) → Command.scopeAll g cs = some g' → g <+: g'
  | [], h => by
    cases h
    exact List.prefix_rfl
  | c :: cs, h => by
    simp only [Command.scopeAll, bind, Option.bind_eq_some_iff] at h
    obtain ⟨g1, hc, hcs⟩ := h
    exact (Command.scope_extends c hc).trans (Command.scopeAll_extends cs hcs)

end

/-- More variables in scope do no harm. -/
theorem VariableReference.inScope_append {g : Scope} {v : VariableReference} (h : v.inScope g)
    (g' : Scope) : v.inScope (g ++ g') := by
  cases v with
  | localVar name fpOffset | globalVar name fpOffset =>
    simp only [VariableReference.inScope, Bool.and_eq_true, beq_iff_eq] at h ⊢
    have hlt := (List.getElem?_eq_some_iff.mp h.2).1
    exact ⟨h.1, (List.getElem?_append_left hlt).trans h.2⟩

theorem IntExpression.inScope_append {g : Scope} (g' : Scope) :
    (e : IntExpression) → e.inScope g → e.inScope (g ++ g')
  | .intVariable _, h => VariableReference.inScope_append h g'
  | .intConstant _, _ => rfl
  | .intFunctionCall _, h => by cases h
  | .intBinaryExpression _ left right, h => by
    simp only [IntExpression.inScope, Bool.and_eq_true] at h ⊢
    exact ⟨left.inScope_append g' h.1, right.inScope_append g' h.2⟩

theorem BooleanExpression.inScope_append {g : Scope} (g' : Scope) :
    (e : BooleanExpression) → e.inScope g → e.inScope (g ++ g')
  | .boolVariable _, h => VariableReference.inScope_append h g'
  | .booleanConstant _, _ => rfl
  | .boolFunctionCall _, h => by cases h
  | .boolNot left, h => left.inScope_append g' h
  | .intComp _ left right, h => by
    simp only [BooleanExpression.inScope, Bool.and_eq_true] at h ⊢
    exact ⟨left.inScope_append g' h.1, right.inScope_append g' h.2⟩
  | .boolAnd left right, h | .boolOr left right, h | .boolCmp _ left right, h => by
    simp only [BooleanExpression.inScope, Bool.and_eq_true] at h ⊢
    exact ⟨left.inScope_append g' h.1, right.inScope_append g' h.2⟩

theorem Initializer.inScope_append {g : Scope} (g' : Scope) {init : Initializer}
    (h : init.inScope g) : init.inScope (g ++ g') := by
  cases init with
  | int e => exact e.inScope_append g' h
  | bool e => exact e.inScope_append g' h

/-- With distinct names, the name finds the variable at its offset. -/
theorem lookup_of_getElem? {env : List (String × Slot)} (hnames : (env.map Prod.fst).Nodup)
    {k : Nat} {name : String} {slot : Slot} (h : env[k]? = some (name, slot)) :
    env.lookup name = some slot := by
  induction env generalizing k with
  | nil => cases h
  | cons e env ih =>
    obtain ⟨hhead, htail⟩ := List.nodup_cons.mp hnames
    cases k with
    | zero =>
      obtain rfl : e = (name, slot) := Option.some.inj h
      simp
    | succ k =>
      have hmem : name ∈ env.map Prod.fst :=
        List.mem_map.mpr ⟨_, List.mem_of_getElem? h, rfl⟩
      have hne : (name == e.1) = false := by
        simpa using fun heq : name = e.1 => hhead (heq ▸ hmem)
      rw [List.lookup_cons, hne]
      exact ih htail h

/-- With distinct names, an assignment by name changes the slot at the offset. -/
theorem setLocal_env {s : EvalState} (hnames : (s.env.map Prod.fst).Nodup) {k : Nat}
    {name : String} {slot : Slot} (h : s.env[k]? = some (name, slot)) (v : Int32) :
    (s.setLocal name v).env = s.env.set k (name, .value v) := by
  unfold EvalState.setLocal
  refine List.ext_getElem? fun i => ?_
  obtain ⟨hk, hget⟩ := List.getElem?_eq_some_iff.mp h
  simp only [List.getElem?_map, List.getElem?_set]
  split
  · next heq =>
    subst heq
    simp [hget, hk]
  · next hne =>
    cases hi : s.env[i]? with
    | none => rfl
    | some e =>
      obtain ⟨hi', hget'⟩ := List.getElem?_eq_some_iff.mp hi
      have hne' : e.1 ≠ name := by
        intro heq
        have hi1 : (s.env.map Prod.fst)[k]? = (s.env.map Prod.fst)[i]? := by
          simp [List.getElem?_map, h, hi, heq]
        exact hne ((List.getElem?_inj (by simpa using hk) hnames).mp hi1)
      simp [hne']

/-! ### The state of the machine -/

section

variable {W H : Type}

/-- The word on the operand stack of a variable: its value, or the index of a reference. -/
def Denotes (vm : VM W H) : Slot → Int32 → Prop
  | .value v, word => word = v
  | .static guid, word => vm.reference? word = some ⟨.external guid, 0⟩

/-- The machine holds the state of the evaluation, with the words `temps` of an expression on top of
the variables.  `printed` went to the output before the program started. -/
structure Represents (printed : List Bytes) (s : EvalState) (temps : List Int32) (vm : VM W H) :
    Prop where
  stack : ∃ words, vm.operandStack = words ++ temps ∧
    List.Forall₂ (fun e word => Denotes vm e.2 word) s.env words
  names : (s.env.map Prod.fst).Nodup
  alive : ∀ name guid, (name, Slot.static guid) ∈ s.env → (s.statics guid).isSome
  statics : vm.externalVariables = fun guid => (s.statics guid).map .static
  output : vm.output = printed ++ s.output

/-- The machine executes code of block 0 in the outermost frame, and has executed a byte of it for
every variable that it holds. -/
structure Steady (s : EvalState) (vm : VM W H) : Prop where
  fp : vm.fp = 0
  accessError : vm.accessError = false
  block : vm.ipBlockNum = 0
  short : vm.code.length < 2 ^ 16
  slots : s.env.length ≤ vm.ip
  references : vm.variableStack.length ≤ vm.ip

theorem scope_getElem? {s : EvalState} {k : Nat} {name : String} {access : Access}
    (h : s.scope[k]? = some (name, access)) :
    ∃ slot, s.env[k]? = some (name, slot) ∧ slot.access = access := by
  simp only [EvalState.scope, List.getElem?_map, Option.map_eq_some_iff, Prod.mk.injEq] at h
  obtain ⟨e, he, rfl, rfl⟩ := h
  exact ⟨e.2, he, rfl⟩

variable {printed : List Bytes} {s : EvalState} {temps : List Int32} {vm : VM W H}

/-- The word of the variable at `k`. -/
theorem Represents.word (h : Represents printed s temps vm) {k : Nat} {name : String}
    {slot : Slot} (hk : s.env[k]? = some (name, slot)) :
    ∃ word, vm.operandStack[k]? = some word ∧ Denotes vm slot word := by
  obtain ⟨words, hstack, hwords⟩ := h.stack
  obtain ⟨hlt, hget⟩ := List.getElem?_eq_some_iff.mp hk
  have hlt' : k < words.length := hwords.length_eq ▸ hlt
  refine ⟨words[k], ?_, ?_⟩
  · rw [hstack, List.getElem?_append_left hlt', List.getElem?_eq_getElem hlt']
  · have hden := hwords.get hlt hlt'
    simpa [hget] using hden

/-! ### Expressions -/

variable {f : VariableFactory W H}

/-- The machine after a division by zero, with what a computation had pushed by then. -/
def divided (vm : VM W H) (temps : List Int32) (ip : Nat) : VM W H :=
  { vm with operandStack := vm.operandStack ++ temps, ip, error := some .divByZero }

theorem divided_withStack (extra temps : List Int32) (m ip : Nat) :
    divided ((vm.withStack (vm.operandStack ++ extra)).advance m) temps ip =
      divided vm (extra ++ temps) ip := by
  simp only [divided, VM.withStack, VM.advance, List.append_assoc]

/-- The run from `vm` ends the computation of `r` that `base` began, in code of `n` bytes: it pushes
the value, or it stops with what the computation had pushed so far. -/
def Leads (f : VariableFactory W H) (vm base : VM W H) (n : Nat) : Except Fault Int32 → Prop
  | .ok v => Run.Reaches (VM.step f) vm ((base.push v).advance n)
  | .error .divByZero =>
    ∃ temps ip, Run.Halts (VM.step f) vm (.exception, divided base temps ip)
  | .error .stuck => False

theorem Leads.of_reaches {vm vm' base : VM W H} {n : Nat} {r : Except Fault Int32}
    (h1 : Run.Reaches (VM.step f) vm vm') (h2 : Leads f vm' base n r) : Leads f vm base n r := by
  match r with
  | .ok v => exact h1.trans h2
  | .error .divByZero =>
    obtain ⟨temps, ip, hhalt⟩ := h2
    exact ⟨temps, ip, .of_reaches h1 hhalt⟩
  | .error .stuck => exact h2.elim

/-- On with the value of a part, which was computed on top of the words `extra`. -/
theorem Leads.bind {vm base base' : VM W H} (extra : List Int32) (m : Nat) {n1 n2 : Nat}
    {r : Except Fault Int32} {k : Int32 → Except Fault Int32}
    (hbase : base' = (base.withStack (base.operandStack ++ extra)).advance m)
    (h : Leads f vm base' n1 r)
    (hk : ∀ v, r = .ok v → Leads f ((base'.push v).advance n1) base n2 (k v)) :
    Leads f vm base n2 (r >>= k) := by
  match r with
  | .ok v => exact .of_reaches h (hk v rfl)
  | .error .divByZero =>
    obtain ⟨temps, ip, hhalt⟩ := h
    subst hbase
    exact ⟨extra ++ temps, ip, divided_withStack extra temps m ip ▸ hhalt⟩
  | .error .stuck => exact h.elim

/-- A word on top of the variables. -/
theorem Represents.push (h : Represents printed s temps vm) (v : Int32) (n : Nat) :
    Represents printed s (temps ++ [v]) ((vm.push v).advance n) := by
  obtain ⟨words, hstack, hwords⟩ := h.stack
  exact ⟨⟨words, by simp [hstack], hwords⟩, h.names, h.alive, h.statics, h.output⟩

theorem Steady.push (h : Steady s vm) (v : Int32) (n : Nat) :
    Steady s ((vm.push v).advance n) :=
  ⟨h.fp, h.accessError, h.block, h.short, Nat.le_add_right_of_le h.slots,
    Nat.le_add_right_of_le h.references⟩

/-- A variable that is in scope, at its offset. -/
theorem VariableReference.inScope_offset {v : VariableReference} (h : v.inScope s.scope) :
    ∃ (k : Nat) (slot : Slot), s.env[k]? = some (v.name, slot) ∧
      ((v = .localVar v.name k ∧ slot.access = .localVar) ∨
        (v = .globalVar v.name k ∧ slot.access = .indirectVar)) := by
  cases v with
  | localVar name fpOffset =>
    simp only [inScope, Bool.and_eq_true, decide_eq_true_eq, beq_iff_eq] at h
    obtain ⟨slot, hslot, haccess⟩ := scope_getElem? h.2
    refine ⟨fpOffset.toNat, slot, hslot, .inl ⟨?_, haccess⟩⟩
    rw [Int.toNat_of_nonneg h.1]
    rfl
  | globalVar name fpOffset =>
    simp only [inScope, Bool.and_eq_true, decide_eq_true_eq, beq_iff_eq] at h
    obtain ⟨slot, hslot, haccess⟩ := scope_getElem? h.2
    refine ⟨fpOffset.toNat, slot, hslot, .inr ⟨?_, haccess⟩⟩
    rw [Int.toNat_of_nonneg h.1]
    rfl

/-- `LOAD_FP_REL` pushes the word of a variable. -/
theorem reaches_loadFpRel (hst : Steady s vm) {k : Nat} {word : Int32} {tail : Bytes}
    (hk : k < s.env.length) (hword : vm.operandStack[k]? = some word)
    (hrest : vm.rest = opArg .loadFpRel k ++ tail) :
    Run.Reaches (VM.step f) vm ((vm.push word).advance (opArg .loadFpRel (k : Int)).length) := by
  have hroom := VM.ip_add_length_le hrest (by simp [opArg])
  have hslots := hst.slots
  have hshort := hst.short
  refine .single ?_
  rw [VM.step_of_rest (VM.rest_opArg hrest), VM.executeInsn, VM.getVarint_opArg hrest]
  have hofs : toUnsigned ((vm.fp : Int) + (Int32.ofInt (k : Int)).toInt) = k := by
    rw [hst.fp, VM.toUnsigned_fp_add (by omega), Nat.zero_add]
  simp only [VM.advance_operandStack, VM.advance_fp, hofs, hword]
  rfl

/-- `INDIRECT_LOAD` replaces the index of a reference by the value of the static variable. -/
theorem step_indirectLoad {stack : List Int32} {word val : Int32} {guid : UInt32} {tail : Bytes}
    (hrest : vm.rest = OpCode.indirectLoad.toByte :: tail) (hacc : vm.accessError = false)
    (hden : Denotes vm (.static guid) word) (hstack : vm.operandStack = stack ++ [word])
    (hval : vm.externalVariables guid = some (.static val)) :
    VM.step f vm = .inl ((vm.withStack (stack ++ [val])).advance 1) := by
  have hread : VM.readVariable f ((vm.withStack stack).advance 1) ⟨.external guid, 0⟩ =
      some (val, (vm.withStack stack).advance 1) := by
    simp only [VM.readVariable]
    rw [show ((vm.withStack stack).advance 1).externalVariables guid = _ from hval]
  rw [VM.step_of_rest hrest, VM.executeInsn, VM.getFromStack_eq (show (vm.advance 1).operandStack = _ from hstack)]
  rw [show VM.reference? ((vm.advance 1).withStack stack) word = _ from hden]
  simp only [VM.withStack_advance, hread]
  rw [if_neg (by simpa [VM.advance, VM.withStack] using hacc)]
  rfl

/-- The value of a variable. -/
theorem VariableReference.fetch_leads (hr : Represents printed s temps vm) (hst : Steady s vm)
    {v : VariableReference} (hs : v.inScope s.scope) {tail : Bytes}
    (hrest : vm.rest = v.serializeFetch ++ tail) :
    Leads f vm vm v.serializeFetch.length (s.read v.name) := by
  obtain ⟨k, slot, hslot, hcase⟩ := inScope_offset hs
  obtain ⟨word, hword, hden⟩ := hr.word hslot
  have hk : k < s.env.length := (List.getElem?_eq_some_iff.mp hslot).1
  have hlookup := lookup_of_getElem? hr.names hslot
  rcases hcase with ⟨hv, haccess⟩ | ⟨hv, haccess⟩
  · cases slot with
    | static guid => cases haccess
    | value val =>
      obtain rfl : word = val := hden
      rw [EvalState.read, hlookup]
      generalize v.name = name at hv
      subst hv
      exact reaches_loadFpRel hst hk hword hrest
  · cases slot with
    | value val => cases haccess
    | static guid =>
      obtain ⟨val, hval⟩ := Option.isSome_iff_exists.mp
        (hr.alive _ _ (List.mem_of_getElem? hslot))
      simp only [EvalState.read, hlookup, hval]
      generalize v.name = name at hv
      subst hv
      simp only [serializeFetch, List.append_assoc] at hrest
      refine (reaches_loadFpRel hst hk hword hrest).tail ?_
      have hvar : vm.externalVariables guid = some (.static val) := by simp [hr.statics, hval]
      rw [step_indirectLoad (VM.rest_advance (show (vm.push word).rest = _ from hrest)) hst.accessError hden rfl
        hvar]
      simp [VM.push_eq, serializeFetch]

/-- An operator on the two words on top. -/
theorem NumericOp.leads (op : NumericOp) {l r : Int32} {n : Nat} {base : VM W H} (tail : Bytes)
    (hvm : vm = (base.withStack (base.operandStack ++ [l, r])).advance n)
    (hrest : vm.rest = op.opcode.toByte :: tail) :
    Leads f vm base (n + 1) (op.eval l r) := by
  have hstack : (vm.advance 1).operandStack = base.operandStack ++ [l, r] := by simp [hvm]
  have hreach {v : Int32} (hstep : VM.step f vm = .inl ((vm.advance 1).withStack
      (base.operandStack ++ [v]))) : Leads f vm base (n + 1) (.ok v) := by
    refine .single (hstep.trans ?_)
    simp [hvm, VM.push_eq]
  have hdiv {o : Int32 → Int32 → Int32}
      (hstep : VM.step f vm = (vm.advance 1).division op.opcode o) :
      Leads f vm base (n + 1) (if r = 0 then .error .divByZero else .ok (o l r)) := by
    rw [VM.division_eq hstack] at hstep
    split
    · next hz =>
      rw [if_pos hz] at hstep
      refine ⟨[], base.ip + n + 1, .of_step (hstep.trans ?_)⟩
      simp [VM.fail, divided, hvm, VM.withStack, VM.advance, Nat.add_assoc]
    · next hnz =>
      rw [if_neg hnz] at hstep
      exact hreach hstep
  cases op with
  | plus | minus | mul =>
    exact hreach ((VM.step_of_rest hrest).trans (VM.binary_eq hstack _ _ _))
  | div | mod => exact hdiv (VM.step_of_rest hrest)

/-- A comparison of the two words on top. -/
theorem CompOp.step_eq (op : CompOp) {l r : Int32} {stack : List Int32} (tail : Bytes)
    (hstack : vm.operandStack = stack ++ [l, r]) (hrest : vm.rest = op.opcode.toByte :: tail) :
    VM.step f vm = .inl ((vm.withStack (stack ++ [op.eval l r])).advance 1) := by
  rw [VM.step_of_rest hrest]
  cases op <;> exact VM.binary_eq (show (vm.advance 1).operandStack = _ from hstack) _ _ _

theorem BoolOp.step_eq (op : BoolOp) {l r : Int32} {stack : List Int32} (tail : Bytes)
    (hstack : vm.operandStack = stack ++ [l, r]) (hrest : vm.rest = op.opcode.toByte :: tail) :
    VM.step f vm = .inl ((vm.withStack (stack ++ [op.eval l r])).advance 1) := by
  rw [VM.step_of_rest hrest]
  cases op <;> exact VM.binary_eq (show (vm.advance 1).operandStack = _ from hstack) _ _ _

/-- Two operands, the left one first, and an operator on them. -/
theorem Leads.binary {nl nr : Nat} {rl rr : Except Fault Int32}
    {k : Int32 → Int32 → Except Fault Int32} (hl : Leads f vm vm nl rl)
    (hr : ∀ l, Leads f ((vm.push l).advance nl) ((vm.push l).advance nl) nr rr)
    (hop : ∀ l r, Leads f ((vm.withStack (vm.operandStack ++ [l, r])).advance (nl + nr)) vm
      (nl + nr + 1) (k l r)) :
    Leads f vm vm (nl + nr + 1) (do k (← rl) (← rr)) := by
  refine Leads.bind [] 0 (by simp) hl fun l _ => ?_
  refine Leads.bind [l] nl rfl (hr l) fun r _ => ?_
  simpa [VM.push_eq] using hop l r

/-- A push of a constant. -/
theorem Leads.constant {n : Nat} {v : Int32}
    (h : VM.step f vm = .inl ((vm.push v).advance n)) : Leads f vm vm n (.ok v) :=
  .single h

/-- Compiled integer expressions compute their value. -/
theorem IntExpression.leads (address : String → Int) :
    (e : IntExpression) → ∀ {temps : List Int32} {vm : VM W H} {tail : Bytes},
    Represents printed s temps vm → Steady s vm → e.inScope s.scope →
    vm.rest = e.serialize address ++ tail →
    Leads f vm vm (e.serialize address).length (e.eval s)
  | .intVariable v, _, _, _, hr, hst, hs, hrest => VariableReference.fetch_leads hr hst hs hrest
  | .intConstant value, _, vm, tail, _, _, _, hrest => by
    simp only [IntExpression.serialize] at hrest ⊢
    split at hrest
    · next hz =>
      subst hz
      exact Leads.constant (VM.step_of_rest hrest)
    · split at hrest
      · next ho =>
        subst ho
        exact Leads.constant (VM.step_of_rest hrest)
      · next hz ho =>
        rw [if_neg hz, if_neg ho]
        refine Leads.constant ?_
        rw [VM.step_of_rest hrest, VM.executeInsn,
          VM.getVarint_eq (VM.rest_advance_one hrest), VM.advance_advance, List.length_cons,
          Nat.add_comm 1]
        rfl
  | .intFunctionCall _, _, _, _, _, _, hs, _ => by cases hs
  | .intBinaryExpression op left right, _, vm, tail, hr, hst, hs, hrest => by
    simp only [IntExpression.inScope, Bool.and_eq_true] at hs
    simp only [IntExpression.serialize, List.append_assoc] at hrest
    simp only [IntExpression.serialize, List.length_append, List.length_singleton]
    refine Leads.binary (left.leads address hr hst hs.1 hrest) (fun l => ?_) fun l r => ?_
    · exact right.leads address (hr.push l _) (hst.push l _) hs.2
        (VM.rest_advance (show (vm.push l).rest = _ from hrest))
    · refine op.leads tail rfl ?_
      rw [← VM.advance_advance]
      exact VM.rest_advance (VM.rest_advance (show (vm.withStack _).rest = _ from hrest))

theorem Represents.advance (h : Represents printed s temps vm) (n : Nat) :
    Represents printed s temps (vm.advance n) :=
  ⟨h.stack, h.names, h.alive, h.statics, h.output⟩

theorem Steady.advance (h : Steady s vm) (n : Nat) : Steady s (vm.advance n) :=
  ⟨h.fp, h.accessError, h.block, h.short, Nat.le_add_right_of_le h.slots,
    Nat.le_add_right_of_le h.references⟩

/-- The computation began `m` bytes earlier. -/
theorem Leads.shift {vm base : VM W H} {m n : Nat} {r : Except Fault Int32}
    (h : Leads f vm (base.advance m) n r) : Leads f vm base (m + n) r := by
  match r with
  | .ok v => simpa [Leads, VM.push_advance] using h
  | .error .divByZero => exact h
  | .error .stuck => exact h.elim

/-- The code behind the left operand `l` of a short-circuit operator: `l` is the value, or it gives
way to the right operand. -/
theorem Leads.shortCircuit {op : OpCode} {name : String} {takes : Int32 → Bool}
    (hexec : ∀ vm : VM W H, VM.executeInsn f vm op = vm.testJump op name takes)
    (base : VM W H) (l : Int32) {n : Nat} {rhs tail : Bytes} {r : Except Fault Int32}
    (hshort : base.code.length < 2 ^ 16)
    (hrest : ((base.push l).advance n).rest = OpCode.pushTop.toByte ::
      (opArg op (OpCode.popOp.toByte :: rhs).length ++ (OpCode.popOp.toByte :: rhs ++ tail)))
    (hright : ∀ m, (base.advance m).rest = rhs ++ tail →
      Leads f (base.advance m) (base.advance m) rhs.length r) :
    Leads f ((base.push l).advance n) base
      (n + (1 + ((opArg op (OpCode.popOp.toByte :: rhs).length).length + (1 + rhs.length))))
      (if takes l then .ok l else r) := by
  set vm := (base.push l).advance n with hvm
  set jump := opArg op (OpCode.popOp.toByte :: rhs).length with hjump
  have hrest1 := VM.rest_advance_one (show (vm.push l).rest = _ from hrest)
  have hsmall : (OpCode.popOp.toByte :: rhs).length < 2 ^ 31 := by
    have hlen := congrArg List.length hrest1
    simp only [VM.length_rest, List.length_append] at hlen
    have : ((vm.push l).advance 1).code = base.code := rfl
    rw [this] at hlen
    omega
  have hpush : VM.step f vm = .inl ((vm.push l).advance 1) := by
    rw [VM.step_of_rest hrest, VM.executeInsn]
    simp [hvm, VM.push_advance, VM.proceed]
  have htest : VM.step f ((vm.push l).advance 1) =
      .inl (vm.advance (1 + (jump.length +
        if takes l then (OpCode.popOp.toByte :: rhs).length else 0))) := by
    rw [VM.step_of_rest (VM.rest_opArg hrest1), hexec, VM.testJump_eq hrest1 hsmall rfl]
    simp only [VM.withStack_advance, VM.advance_advance]
    rfl
  refine .of_reaches (.head hpush (.single htest)) ?_
  by_cases ht : takes l = true
  · rw [if_pos ht, if_pos ht]
    have hend : vm.advance (1 + (jump.length + (OpCode.popOp.toByte :: rhs).length)) =
        (base.push l).advance (n + (1 + (jump.length + (1 + rhs.length)))) := by
      simp [hvm, Nat.add_comm 1 rhs.length]
    rw [hend]
    exact Run.Reaches.refl _
  · rw [if_neg ht, if_neg ht]
    have hrest2 : (vm.advance (1 + (jump.length + 0))).rest =
        OpCode.popOp.toByte :: (rhs ++ tail) := by
      rw [Nat.add_zero, ← VM.advance_advance]
      exact VM.rest_advance hrest1
    have hpop : VM.step f (vm.advance (1 + (jump.length + 0))) =
        .inl (base.advance (n + (1 + jump.length + 1))) := by
      rw [VM.step_of_rest hrest2, VM.executeInsn]
      simp [hvm, VM.push, VM.proceed, VM.advance, Nat.add_assoc]
    have hlead := (hright (n + (1 + jump.length + 1)) ?_).shift
    · refine .of_reaches (.single hpop) ?_
      convert hlead using 1
      omega
    · have hrest3 := VM.rest_advance_one hrest2
      rw [hvm, VM.advance_advance, VM.advance_advance, Nat.add_zero, Nat.add_assoc] at hrest3
      exact hrest3

/-- Compiled Boolean expressions compute their value. -/
theorem BooleanExpression.leads (address : String → Int) :
    (e : BooleanExpression) → ∀ {temps : List Int32} {vm : VM W H} {tail : Bytes},
    Represents printed s temps vm → Steady s vm → e.inScope s.scope →
    vm.rest = e.serialize address ++ tail →
    Leads f vm vm (e.serialize address).length (e.eval s)
  | .boolVariable v, _, _, _, hr, hst, hs, hrest => VariableReference.fetch_leads hr hst hs hrest
  | .booleanConstant value, _, vm, tail, _, _, _, hrest => by
    cases value with
    | false =>
      have hop : vm.rest = OpCode.pushConstant0.toByte :: tail := hrest
      exact Leads.constant (VM.step_of_rest hop)
    | true =>
      have hop : vm.rest = OpCode.pushConstant1.toByte :: tail := hrest
      exact Leads.constant (VM.step_of_rest hop)
  | .boolFunctionCall _, _, _, _, _, _, hs, _ => by cases hs
  | .intComp op left right, _, vm, tail, hr, hst, hs, hrest => by
    simp only [BooleanExpression.inScope, Bool.and_eq_true] at hs
    simp only [BooleanExpression.serialize, List.append_assoc] at hrest
    simp only [BooleanExpression.serialize, List.length_append, List.length_singleton]
    refine Leads.binary (left.leads address hr hst hs.1 hrest) (fun l => ?_) fun l r => ?_
    · exact right.leads address (hr.push l _) (hst.push l _) hs.2
        (VM.rest_advance (show (vm.push l).rest = _ from hrest))
    · refine .single ((op.step_eq tail rfl ?_).trans ?_)
      · rw [← VM.advance_advance]
        exact VM.rest_advance (VM.rest_advance (show (vm.withStack _).rest = _ from hrest))
      · simp [VM.push_eq]
  | .boolCmp op left right, _, vm, tail, hr, hst, hs, hrest => by
    simp only [BooleanExpression.inScope, Bool.and_eq_true] at hs
    simp only [BooleanExpression.serialize, List.append_assoc] at hrest
    simp only [BooleanExpression.serialize, List.length_append, List.length_singleton]
    refine Leads.binary (left.leads address hr hst hs.1 hrest) (fun l => ?_) fun l r => ?_
    · exact right.leads address (hr.push l _) (hst.push l _) hs.2
        (VM.rest_advance (show (vm.push l).rest = _ from hrest))
    · refine .single ((op.step_eq tail rfl ?_).trans ?_)
      · rw [← VM.advance_advance]
        exact VM.rest_advance (VM.rest_advance (show (vm.withStack _).rest = _ from hrest))
      · simp [VM.push_eq]
  | .boolNot left, _, vm, tail, hr, hst, hs, hrest => by
    simp only [BooleanExpression.serialize, List.append_assoc] at hrest
    simp only [BooleanExpression.serialize, List.length_append, List.length_singleton]
    refine Leads.bind [] 0 (by simp) (left.leads address hr hst hs hrest)
      fun l _ => .single ?_
    have hop : ((vm.push l).advance (left.serialize address).length).rest =
        OpCode.boolNot.toByte :: tail := VM.rest_advance hrest
    have hstack : (((vm.push l).advance (left.serialize address).length).advance 1).operandStack =
        vm.operandStack ++ [l] := rfl
    rw [VM.step_of_rest hop, VM.executeInsn, VM.getFromStack_eq hstack]
    simp [VM.proceed, VM.push_eq]
  | .boolAnd left right, _, vm, tail, hr, hst, hs, hrest => by
    simp only [BooleanExpression.inScope, Bool.and_eq_true] at hs
    simp only [BooleanExpression.serialize, List.append_assoc] at hrest
    refine Leads.bind [] 0 (by simp) (left.leads address hr hst hs.1 hrest)
      fun l _ => ?_
    have htest := Leads.shortCircuit (fun _ => rfl) vm l hst.short
      (VM.rest_advance (show (vm.push l).rest = _ from hrest)) fun m hm =>
        right.leads address (hr.advance m) (hst.advance m) hs.2 hm
    convert htest using 1
    · simp [BooleanExpression.serialize, Nat.add_comm, Nat.add_left_comm]
    · simp only [beq_iff_eq]
      rfl
  | .boolOr left right, _, vm, tail, hr, hst, hs, hrest => by
    simp only [BooleanExpression.inScope, Bool.and_eq_true] at hs
    simp only [BooleanExpression.serialize, List.append_assoc] at hrest
    refine Leads.bind [] 0 (by simp) (left.leads address hr hst hs.1 hrest)
      fun l _ => ?_
    have htest := Leads.shortCircuit (fun _ => rfl) vm l hst.short
      (VM.rest_advance (show (vm.push l).rest = _ from hrest)) fun m hm =>
        right.leads address (hr.advance m) (hst.advance m) hs.2 hm
    convert htest using 1
    · simp [BooleanExpression.serialize, Nat.add_comm, Nat.add_left_comm]
    · simp only [bne_iff_ne]
      rfl

theorem Initializer.leads (address : String → Int) (init : Initializer) {tail : Bytes}
    (hr : Represents printed s temps vm) (hst : Steady s vm) (hs : init.inScope s.scope)
    (hrest : vm.rest = init.serialize address ++ tail) :
    Leads f vm vm (init.serialize address).length (init.eval s) := by
  cases init with
  | int e => exact e.leads address hr hst hs hrest
  | bool e => exact e.leads address hr hst hs hrest

end

end OpenmrnCue.Logic
