import OpenmrnCue.Logic.ExpressionCorrect

/-! The virtual machine runs compiled programs as direct evaluation says, for programs without
functions and exported variables. -/

namespace OpenmrnCue.Logic

/-! ### The code of a command -/

/-- The code of a command on its own. -/
def Command.code (d : Driver) (c : Command) : Bytes := (c.serialize false d []).1

def Command.codeAll (d : Driver) (cs : List Command) : Bytes :=
  (Command.serializeAll false d [] cs).1

mutual

/-- A command without functions appends its code and leaves the driver alone. -/
theorem Command.serialize_eq {g g' : Scope} (d : Driver) : (c : Command) →
    c.scope g = some g' → ∀ root output, c.serialize root d output = (output ++ c.code d, d)
  | .empty, _, root, output => by simp [Command.code, Command.serialize]
  | .commandSequence cs trimFrom trimTo, h, root, output => by
    obtain ⟨g1, hcs, -⟩ := Command.scope_commandSequence h
    simp only [Command.code, Command.serialize, Command.serializeAll_eq d cs hcs root output,
      Command.serializeAll_eq d cs hcs false []]
    split <;> [split; skip] <;> simp
  | .staticVarCreate .., _, root, output | .localVarCreate .., _, root, output
  | .numericAssignment .., _, root, output | .booleanAssignment .., _, root, output
  | .printString _, _, root, output | .printInt _, _, root, output
  | .terminate, _, root, output => by simp [Command.code, Command.serialize]
  | .ifThen condition thenCase, h, root, output => by
    obtain ⟨-, hthen, -⟩ := Command.scope_ifThen h
    have hd : (thenCase.serialize false d []).2 = d :=
      congrArg Prod.snd (Command.serialize_eq d thenCase hthen false [])
    simp [Command.code, Command.serialize, hd]
  | .ifThenElse condition thenCase elseCase, h, root, output => by
    obtain ⟨-, hthen, helse, -⟩ := Command.scope_ifThenElse h
    have hd1 : (thenCase.serialize false d []).2 = d :=
      congrArg Prod.snd (Command.serialize_eq d thenCase hthen false [])
    have hd2 : (elseCase.serialize false d []).2 = d :=
      congrArg Prod.snd (Command.serialize_eq d elseCase helse false [])
    simp [Command.code, Command.serialize, hd1, hd2]
  | .indirectVarCreate .., h, _, _ | .function .., h, _, _ | .functionCall _, h, _, _ => by cases h

theorem Command.serializeAll_eq {g g' : Scope} (d : Driver) : (cs : List Command) →
    Command.scopeAll g cs = some g' → ∀ root output,
    Command.serializeAll root d output cs = (output ++ Command.codeAll d cs, d)
  | [], _, root, output => by simp [Command.codeAll, Command.serializeAll]
  | c :: cs, h, root, output => by
    simp only [Command.scopeAll, bind, Option.bind_eq_some_iff] at h
    obtain ⟨g1, hc, hcs⟩ := h
    have hall (root output) : Command.serializeAll root d output (c :: cs) =
        (output ++ (c.code d ++ Command.codeAll d cs), d) := by
      rw [Command.serializeAll, Command.serialize_eq d c hc]
      simp only [Command.serializeAll_eq d cs hcs, List.append_assoc]
    rw [hall, Command.codeAll.eq_def d (c :: cs), hall]
    rfl

end

theorem Command.codeAll_cons {g g' : Scope} (d : Driver) {c : Command} {cs : List Command}
    {g1 : Scope} (hc : c.scope g = some g1) (hcs : Command.scopeAll g1 cs = some g') :
    Command.codeAll d (c :: cs) = c.code d ++ Command.codeAll d cs := by
  rw [Command.codeAll.eq_def d (c :: cs), Command.serializeAll, Command.serialize_eq d c hc]
  simp only [Command.serializeAll_eq d cs hcs, List.nil_append]

/-! ### Running a command -/

section

variable {W H : Type} {f : VariableFactory W H} {printed : List Bytes} {s : EvalState}
  {temps : List Int32} {vm : VM W H}

/-- The run from `vm` through code of `n` bytes does what an evaluation does that ends in the scope
`g`. -/
def Follows (f : VariableFactory W H) (printed : List Bytes) (g : Scope) (vm : VM W H) (n : Nat) :
    Ending × EvalState → Prop
  | (.normal, s) => ∃ vm', Run.Reaches (VM.step f) vm vm' ∧ vm'.ip = vm.ip + n ∧
      vm'.blocks = vm.blocks ∧ s.scope = g ∧ Represents printed s [] vm' ∧ Steady s vm'
  | (.terminated, s) => ∃ last vm', Run.Reaches (VM.step f) vm last ∧
      last.rest.head? = some OpCode.terminate.toByte ∧
      VM.step f last = .inr (.success, vm') ∧ Represents printed s [] vm'
  | (.divByZero, s) => ∃ temps vm', Run.Halts (VM.step f) vm (.exception, vm') ∧
      vm'.error = some .divByZero ∧ Represents printed s temps vm'
  | (.stuck, _) => False

theorem Follows.of_reaches {g : Scope} {vm' : VM W H} {n m : Nat} {r : Ending × EvalState}
    (h1 : Run.Reaches (VM.step f) vm vm') (hip : vm'.ip = vm.ip + m)
    (hblocks : vm'.blocks = vm.blocks) (h2 : Follows f printed g vm' n r) :
    Follows f printed g vm (m + n) r := by
  match r with
  | (.normal, s) =>
    obtain ⟨end', hrun, hend, hb, hrest⟩ := h2
    exact ⟨end', h1.trans hrun, by omega, hb.trans hblocks, hrest⟩
  | (.terminated, s) =>
    obtain ⟨last, end', hrun, hrest⟩ := h2
    exact ⟨last, end', h1.trans hrun, hrest⟩
  | (.divByZero, s) =>
    obtain ⟨temps, end', hrun, hrest⟩ := h2
    exact ⟨temps, end', .of_reaches h1 hrun, hrest⟩
  | (.stuck, _) => exact h2.elim

/-- The code behind what has been executed. -/
theorem rest_of_blocks {s' : EvalState} {vm' : VM W H} {code tail : Bytes} (hst : Steady s vm)
    (hst' : Steady s' vm') (hip : vm'.ip = vm.ip + code.length) (hblocks : vm'.blocks = vm.blocks)
    (hrest : vm.rest = code ++ tail) : vm'.rest = tail := by
  have hcode : vm'.code = vm.code := by simp [VM.code, hblocks, hst.block, hst'.block]
  rw [VM.rest, hcode, hip]
  exact VM.rest_advance hrest

/-- One command after the other. -/
theorem Follows.andThen {g : Scope} (g' : Scope) {n m : Nat} {r : Ending × EvalState}
    {k : EvalState → Ending × EvalState} (h1 : Follows f printed g vm n r)
    (h2 : ∀ s vm', vm'.ip = vm.ip + n → vm'.blocks = vm.blocks → s.scope = g →
      Represents printed s [] vm' → Steady s vm' → Follows f printed g' vm' m (k s)) :
    Follows f printed g' vm (n + m) (Logic.andThen r k) := by
  match r with
  | (.normal, s) =>
    obtain ⟨vm', hrun, hip, hblocks, hscope, hr, hst⟩ := h1
    exact .of_reaches hrun hip hblocks (h2 s vm' hip hblocks hscope hr hst)
  | (.terminated, s) => exact h1
  | (.divByZero, s) => exact h1
  | (.stuck, _) => exact h1.elim

/-- On with the value of an expression. -/
theorem Follows.withValue {g : Scope} {n m : Nat} {r : Except Fault Int32}
    {k : Int32 → Ending × EvalState} (hr : Represents printed s [] vm) (h1 : Leads f vm vm n r)
    (h2 : ∀ v, Follows f printed g ((vm.push v).advance n) m (k v)) :
    Follows f printed g vm (n + m) (s.withValue r k) := by
  match r with
  | .ok v => exact .of_reaches h1 rfl rfl (h2 v)
  | .error .divByZero =>
    obtain ⟨temps, ip, hhalt⟩ := h1
    obtain ⟨words, hstack, hwords⟩ := hr.stack
    refine ⟨temps, _, hhalt, rfl, ⟨words, ?_, hwords⟩, hr.names, hr.alive, hr.statics, hr.output⟩
    simp [divided, hstack]
  | .error .stuck => exact h1.elim

/-- The stack holds nothing but the variables. -/
theorem Represents.length_stack (h : Represents printed s [] vm) :
    vm.operandStack.length = s.env.length := by
  obtain ⟨words, hstack, hwords⟩ := h.stack
  rw [hstack, List.append_nil, hwords.length_eq]

/-- The word on top becomes a new variable. -/
theorem Represents.declare {name : String} {slot : Slot} {word : Int32}
    (h : Represents printed s [word] vm) (hfresh : ∀ e ∈ s.env, e.1 ≠ name)
    (hden : Denotes vm slot word)
    (halive : ∀ guid, slot = .static guid → (s.statics guid).isSome) :
    Represents printed (s.declare name slot) [] vm := by
  obtain ⟨words, hstack, hwords⟩ := h.stack
  refine ⟨⟨words ++ [word], by simpa using hstack, ?_⟩, ?_, ?_, h.statics, h.output⟩
  · exact List.rel_append hwords (.cons hden .nil)
  · simp only [EvalState.declare, List.map_append, List.map_cons, List.map_nil]
    refine List.nodup_append.mpr ⟨h.names, by simp, ?_⟩
    intro a ha b hb
    obtain ⟨e, he, rfl⟩ := List.mem_map.mp ha
    obtain rfl := List.mem_singleton.mp hb
    exact hfresh e he
  · intro n guid hmem
    rcases List.mem_append.mp hmem with hmem | hmem
    · exact h.alive n guid hmem
    · obtain ⟨-, rfl⟩ := Prod.mk.inj (List.mem_singleton.mp hmem)
      exact halive guid rfl

theorem EvalState.scope_declare (s : EvalState) (name : String) (slot : Slot) :
    (s.declare name slot).scope = s.scope ++ [(name, slot.access)] := by
  simp [EvalState.scope, EvalState.declare]

theorem EvalState.length_scope (s : EvalState) : s.scope.length = s.env.length := by
  simp [EvalState.scope]

theorem EvalState.scope_fresh {s : EvalState} {name : String} (h : ∀ e ∈ s.scope, e.1 ≠ name) :
    ∀ e ∈ s.env, e.1 ≠ name :=
  fun e he => h (e.1, e.2.access) (List.mem_map.mpr ⟨e, he, rfl⟩)

/-! ### Assignments -/

theorem forall₂_set {α β : Type} {R : α → β → Prop} {as : List α} {bs : List β}
    (h : List.Forall₂ R as bs) {a : α} {b : β} (hab : R a b) (k : Nat) :
    List.Forall₂ R (as.set k a) (bs.set k b) := by
  induction h generalizing k with
  | nil => exact .nil
  | cons hhead htail ih =>
    cases k with
    | zero => exact .cons hab htail
    | succ k => exact .cons hhead (ih k)

theorem set_of_getElem? {α : Type} {as : List α} {k : Nat} {a : α} (h : as[k]? = some a) :
    as.set k a = as := by
  obtain ⟨hlt, rfl⟩ := List.getElem?_eq_some_iff.mp h
  exact List.set_getElem_self hlt

/-- A store to the slot of a local variable. -/
theorem Represents.setLocal {words : List Int32} (h : Represents printed s temps vm)
    (hwords : List.Forall₂ (fun e word => Denotes vm e.2 word) s.env words) {k : Nat}
    {name : String} {old val : Int32} (hk : s.env[k]? = some (name, .value old)) (n : Nat) :
    Represents printed (s.setLocal name val) [] ((vm.withStack (words.set k val)).advance n) := by
  have henv := setLocal_env h.names hk val
  refine ⟨⟨words.set k val, by simp, ?_⟩, ?_, ?_, h.statics, h.output⟩
  · rw [henv]
    exact forall₂_set hwords (a := (name, .value val)) (b := val) rfl k
  · rw [henv, List.map_set, set_of_getElem? (by simp [hk])]
    exact h.names
  · intro n guid hmem
    rw [henv] at hmem
    rcases List.mem_or_eq_of_mem_set hmem with hmem | heq
    · exact h.alive n guid hmem
    · cases heq

theorem EvalState.scope_setLocal {k : Nat} {name : String} {old val : Int32}
    (hnames : (s.env.map Prod.fst).Nodup) (hk : s.env[k]? = some (name, .value old)) :
    (s.setLocal name val).scope = s.scope := by
  rw [EvalState.scope, setLocal_env hnames hk, List.map_set, set_of_getElem?]
  · rfl
  · rw [List.getElem?_map, hk]
    rfl

/-- `INDIRECT_STORE` to a static variable. -/
theorem step_indirectStore {stack : List Int32} {word val old : Int32} {guid : UInt32}
    {tail : Bytes} (hrest : vm.rest = OpCode.indirectStore.toByte :: tail)
    (hacc : vm.accessError = false) (hden : Denotes vm (.static guid) word)
    (hstack : vm.operandStack = stack ++ [val, word])
    (hold : vm.externalVariables guid = some (.static old)) :
    VM.step f vm = .inl { (vm.withStack stack).advance 1 with
      externalVariables := Function.update vm.externalVariables guid (some (.static val)) } := by
  have hword : (vm.advance 1).operandStack = (stack ++ [val]) ++ [word] := by simpa using hstack
  have hval : ((vm.advance 1).withStack (stack ++ [val])).operandStack = stack ++ [val] := rfl
  rw [VM.step_of_rest hrest, VM.executeInsn, VM.getFromStack_eq hword, VM.getFromStack_eq hval]
  have hwrite : VM.writeVariable f ((vm.withStack stack).advance 1) ⟨.external guid, 0⟩ val =
      some { (vm.withStack stack).advance 1 with
        externalVariables := Function.update vm.externalVariables guid (some (.static val)) } := by
    simp only [VM.writeVariable]
    rw [show ((vm.withStack stack).advance 1).externalVariables guid = _ from hold]
    rfl
  simp only [VM.withStack_advance, VM.withStack_withStack]
  rw [show VM.reference? ((vm.withStack stack).advance 1) word = _ from hden]
  simp only [hwrite]
  rw [if_neg (by simpa [VM.advance, VM.withStack] using hacc)]
  rfl

/-- A store to a static variable. -/
theorem Represents.setStatic (h : Represents printed s temps vm) (guid : UInt32) (val : Int32) :
    Represents printed (s.setStatic guid val) temps { vm with
      externalVariables := Function.update vm.externalVariables guid (some (.static val)) } := by
  refine ⟨h.stack, h.names, ?_, ?_, h.output⟩
  · intro n g hmem
    have := h.alive n g hmem
    by_cases hg : g = guid <;> simp_all [EvalState.setStatic]
  · funext g
    by_cases hg : g = guid <;> simp [EvalState.setStatic, hg, h.statics]

/-- The word on top is stored in a variable. -/
theorem VariableReference.store_follows {v : VariableReference} {val : Int32} (tail : Bytes)
    (hr : Represents printed s [val] vm) (hst : Steady s vm) (hs : v.inScope s.scope)
    (hrest : vm.rest = v.serializeStore ++ tail) :
    Follows f printed s.scope vm v.serializeStore.length (s.assign v.name val) := by
  obtain ⟨k, slot, hslot, hcase⟩ := inScope_offset hs
  obtain ⟨word, hword, hden⟩ := hr.word hslot
  obtain ⟨words, hstack, hwords⟩ := hr.stack
  have hk : k < s.env.length := (List.getElem?_eq_some_iff.mp hslot).1
  have hlen : words.length = s.env.length := hwords.length_eq.symm
  have hlookup := lookup_of_getElem? hr.names hslot
  have hslots := hst.slots
  have hshort := hst.short
  rcases hcase with ⟨hv, haccess⟩ | ⟨hv, haccess⟩
  · cases slot with
    | static guid => cases haccess
    | value old =>
      simp only [EvalState.assign, hlookup]
      generalize v.name = name at hv hslot
      subst hv
      have hroom := VM.ip_add_length_le hrest (by simp [serializeStore, opArg])
      have hofs : toUnsigned ((vm.fp : Int) + (Int32.ofInt (k : Int)).toInt) = k := by
        rw [hst.fp, VM.toUnsigned_fp_add (by omega), Nat.zero_add]
      have hstep : VM.step f vm = .inl ((vm.withStack (words.set k val)).advance
          (serializeStore (localVar name k)).length) := by
        rw [VM.step_of_rest (VM.rest_opArg hrest), VM.executeInsn,
          VM.getFromStack_eq (show (vm.advance 1).operandStack = _ from hstack), VM.withStack_advance,
          VM.getVarint_opArg (show (vm.withStack words).rest = _ from hrest)]
        simp only [VM.advance_fp, VM.withStack_fp, hofs, VM.advance_operandStack,
          VM.withStack_operandStack]
        rw [if_neg (by omega)]
        rfl
      exact ⟨_, .single hstep, rfl, rfl, EvalState.scope_setLocal hr.names hslot,
        hr.setLocal hwords hslot _, hst.fp, hst.accessError, hst.block, hst.short,
        by simpa [EvalState.setLocal] using Nat.le_add_right_of_le hslots,
        Nat.le_add_right_of_le hst.references⟩
  · cases slot with
    | value val => cases haccess
    | static guid =>
      obtain ⟨old, hold⟩ := Option.isSome_iff_exists.mp
        (hr.alive _ _ (List.mem_of_getElem? hslot))
      simp only [EvalState.assign, hlookup]
      generalize v.name = name at hv hslot
      subst hv
      simp only [serializeStore, List.append_assoc] at hrest
      have hvar : vm.externalVariables guid = some (.static old) := by simp [hr.statics, hold]
      have hload := reaches_loadFpRel (f := f) hst hk hword hrest
      have hpushed : ((vm.push word).advance (opArg .loadFpRel (k : Int)).length).operandStack =
          words ++ [val, word] := by simp [hstack]
      have hstore := step_indirectStore (f := f)
        (VM.rest_advance (show (vm.push word).rest = _ from hrest)) hst.accessError hden hpushed hvar
      have hclean : Represents printed s [] ((vm.withStack words).advance
          ((opArg .loadFpRel (k : Int)).length + 1)) :=
        ⟨⟨words, by simp, hwords⟩, hr.names, hr.alive, hr.statics, hr.output⟩
      exact ⟨_, hload.tail hstore, by simp [serializeStore, Nat.add_assoc], rfl, rfl,
        hclean.setStatic guid val, hst.fp, hst.accessError, hst.block, hst.short,
        Nat.le_add_right_of_le (Nat.le_add_right_of_le hslots),
        Nat.le_add_right_of_le (Nat.le_add_right_of_le hst.references)⟩

/-! ### Declarations -/

/-- A local variable is the word that its initial value leaves on the stack. -/
theorem localVarCreate_follows {d : Driver} {name : String} {type : DataType} {fpOffset : Int}
    {init : Initializer} {g : Scope} {tail : Bytes} (hr : Represents printed s [] vm)
    (hst : Steady s vm)
    (hs : (Command.localVarCreate name type fpOffset init).scope s.scope = some g)
    (hrest : vm.rest = (Command.localVarCreate name type fpOffset init).code d ++ tail) :
    Follows f printed g vm ((Command.localVarCreate name type fpOffset init).code d).length
      ((Command.localVarCreate name type fpOffset init).eval s) := by
  obtain ⟨hinit, hs⟩ := Option.ite_none_right_eq_some.mp hs
  obtain ⟨rfl, hfresh, rfl⟩ := Scope.declare_eq_some hs
  have hcode : (Command.localVarCreate name type s.scope.length init).code d =
      opArg .checkStackLength s.scope.length ++ init.serialize d.address := by
    simp [Command.code, Command.serialize]
  rw [hcode, List.append_assoc] at hrest
  rw [hcode, List.length_append, Command.eval]
  have hroom := VM.ip_add_length_le hrest (by simp [opArg])
  have hslots := hst.slots
  have hshort := hst.short
  have hcheck := VM.step_checkStackLength (f := f) hrest
    (by rw [hst.fp, s.length_scope]; omega)
    (by rw [hst.fp, hr.length_stack, s.length_scope, Nat.zero_add])
  refine .of_reaches (.single hcheck) rfl rfl ?_
  refine Follows.withValue (m := 0) (hr.advance _)
    (init.leads d.address (hr.advance _) (hst.advance _) hinit (VM.rest_advance hrest)) fun v => ?_
  refine ⟨_, .refl _, rfl, rfl, s.scope_declare name (.value v), ?_, hst.fp, hst.accessError,
    hst.block, hst.short, ?_, ?_⟩
  · exact ((hr.advance _).push v _).declare (EvalState.scope_fresh hfresh) rfl (by simp)
  · have hone : 1 ≤ (opArg .checkStackLength (s.scope.length : Int)).length := by simp
    simp only [EvalState.declare, List.length_append, List.length_singleton, VM.advance_ip]
    show s.env.length + 1 ≤ vm.ip + _ + _
    omega
  · exact Nat.le_add_right_of_le (Nat.le_add_right_of_le hst.references)

/-- The machine with a reference to the static variable of `guid`, which it creates unless it has
it. -/
def withStatic (vm : VM W H) (guid : UInt32) : VM W H :=
  { vm with
    externalVariables :=
      if (vm.externalVariables guid).isNone then
        Function.update vm.externalVariables guid (some (.static 0))
      else vm.externalVariables
    variableStack := vm.variableStack ++ [VMVariableReference.mk (.external guid) 0] }.push
    (.ofNat vm.variableStack.length)

/-- `CREATE_STATIC_VAR` pushes a reference to the variable, and whether it is new. -/
theorem step_createStaticVar {guid : Int} {tail : Bytes}
    (hrest : vm.rest = opArg .createStaticVar guid ++ tail) :
    VM.step f vm = .inl (((withStatic vm (guidKey guid)).push
      (ofBool (vm.externalVariables (guidKey guid)).isNone)).advance
        (opArg .createStaticVar guid).length) := by
  rw [VM.step_of_rest (VM.rest_opArg hrest), VM.executeInsn, VM.getVarint_opArg hrest,
    VM.advance_externalVariables, withStatic]
  simp only [guidKey]
  by_cases hnew : (vm.externalVariables (Int32.ofInt guid).toUInt32).isNone = true
  · simp only [hnew, if_true]
    rfl
  · simp only [hnew]
    rfl

/-- A new reference does not disturb the others. -/
theorem Denotes.append {ref : VMVariableReference} {slot : Slot} {word : Int32}
    {vm' : VM W H} (h : Denotes vm slot word)
    (hvm : vm'.variableStack = vm.variableStack ++ [ref]) : Denotes vm' slot word := by
  cases slot with
  | value v => exact h
  | static guid =>
    simp only [Denotes, VM.reference?] at h ⊢
    split at h
    · cases h
    · next hneg =>
      rw [if_neg hneg, hvm, List.getElem?_append_left (List.getElem?_eq_some_iff.mp h).1]
      exact h

/-- The word that `CREATE_STATIC_VAR` pushes refers to the variable. -/
theorem denotes_withStatic (hsmall : vm.variableStack.length < 2 ^ 31) (guid : UInt32) :
    Denotes (withStatic vm guid) (.static guid) (.ofNat vm.variableStack.length) := by
  have hint : (Int32.ofNat vm.variableStack.length).toInt = vm.variableStack.length :=
    Int32.toInt_ofNat_of_lt hsmall
  have hneg : ¬Int32.ofNat vm.variableStack.length < 0 := by
    rw [Int32.lt_iff_toInt_lt, hint]
    simp
  simp only [Denotes, VM.reference?, if_neg hneg, hint]
  simp [withStatic, VM.push]

/-- The static variable of `guid` is there and in scope after `CREATE_STATIC_VAR`. -/
theorem Represents.withStatic (h : Represents printed s [] vm) (hst : Steady s vm)
    (hroom : vm.ip < vm.code.length) {name : String} (hfresh : ∀ e ∈ s.env, e.1 ≠ name)
    (guid : UInt32) :
    Represents printed
      ((if (s.statics guid).isNone then s.setStatic guid 0 else s).declare name (.static guid)) []
      (withStatic vm guid) := by
  have hnone : (vm.externalVariables guid).isNone = (s.statics guid).isNone := by simp [h.statics]
  have hsmall : vm.variableStack.length < 2 ^ 31 := by
    have := hst.references
    have := hst.short
    omega
  obtain ⟨words, hstack, hwords⟩ := h.stack
  have hwords' : List.Forall₂ (fun e word => Denotes (Logic.withStatic vm guid) e.2 word)
      s.env words := hwords.imp fun e word hden => hden.append rfl
  have hpush : (Logic.withStatic vm guid).operandStack =
      words ++ [Int32.ofNat vm.variableStack.length] := by
    simp [Logic.withStatic, hstack]
  refine Represents.declare ?_ ?_ (denotes_withStatic hsmall guid) ?_
  · split
    · next hn =>
      have hset := h.setStatic guid 0
      refine ⟨⟨words, hpush, hwords'⟩, h.names, hset.alive, ?_, h.output⟩
      rw [← hset.statics]
      simp [Logic.withStatic, VM.push, hnone, hn]
    · next hn =>
      refine ⟨⟨words, hpush, hwords'⟩, h.names, h.alive, ?_, h.output⟩
      rw [← h.statics]
      simp [Logic.withStatic, VM.push, hnone, hn]
  · split <;> exact hfresh
  · intro g hg
    cases hg
    split
    · simp [EvalState.setStatic]
    · next hn => simpa [Option.isSome_iff_ne_none] using hn

theorem Steady.withStatic (h : Steady s vm) {n : Nat} (hn : 1 ≤ n) (name : String)
    (guid : UInt32) :
    Steady ((if (s.statics guid).isNone then s.setStatic guid 0 else s).declare name
      (.static guid)) ((Logic.withStatic vm guid).advance n) := by
  have hslots := h.slots
  have hrefs := h.references
  refine ⟨h.fp, h.accessError, h.block, h.short, ?_, ?_⟩
  · have : ((if (s.statics guid).isNone then s.setStatic guid 0 else s).declare name
        (.static guid)).env.length = s.env.length + 1 := by
      split <;> simp [EvalState.declare, EvalState.setStatic]
    rw [this]
    show _ ≤ vm.ip + n
    omega
  · have : ((Logic.withStatic vm guid).advance n).variableStack.length =
        vm.variableStack.length + 1 := by
      simp [Logic.withStatic, VM.push]
    rw [this]
    show _ ≤ vm.ip + n
    omega

/-- A static variable is initialized by the first execution of its declaration. -/
theorem staticVarCreate_follows {d : Driver} {name : String} {type : DataType}
    {guid fpOffset : Int} {init : Initializer} {g : Scope} {tail : Bytes}
    (hr : Represents printed s [] vm) (hst : Steady s vm)
    (hs : (Command.staticVarCreate name type guid fpOffset init).scope s.scope = some g)
    (hrest : vm.rest = (Command.staticVarCreate name type guid fpOffset init).code d ++ tail) :
    Follows f printed g vm ((Command.staticVarCreate name type guid fpOffset init).code d).length
      ((Command.staticVarCreate name type guid fpOffset init).eval s) := by
  obtain ⟨hinit, hs⟩ := Option.ite_none_right_eq_some.mp hs
  obtain ⟨rfl, hfresh, rfl⟩ := Scope.declare_eq_some hs
  set v := VariableReference.globalVar name (s.scope.length : Int) with hv
  set code := init.serialize d.address ++ v.serializeStore with hcode
  have hall : (Command.staticVarCreate name type guid s.scope.length init).code d =
      opArg .createStaticVar guid ++ (opArg .testJumpIfFalse code.length ++ code) := by
    simp [Command.code, Command.serialize, hcode, hv]
  rw [hall, List.append_assoc, List.append_assoc] at hrest
  rw [hall]
  have hroom := VM.ip_add_length_le hrest (by simp [opArg])
  set key := guidKey guid with hkey
  set n := (opArg .createStaticVar guid).length with hn
  set m := (opArg .testJumpIfFalse (code.length : Int)).length with hm
  have hone : 1 ≤ n := by simp [hn]
  have hr1 := hr.withStatic hst (by omega) (EvalState.scope_fresh hfresh) key
  have hst1 (k : Nat) := hst.withStatic (n := n + k) (by omega) name key
  have hscope : ((if (s.statics key).isNone then s.setStatic key 0 else s).declare name
      (.static key)).scope = s.scope ++ [(name, Access.indirectVar)] := by
    rw [EvalState.scope_declare]
    split <;> rfl
  have hnone : (vm.externalVariables key).isNone = (s.statics key).isNone := by simp [hr.statics]
  have hrest1 := VM.rest_advance (show (withStatic vm key).rest = _ from hrest)
  have hcreate := step_createStaticVar (f := f) hrest
  rw [← hkey, hnone] at hcreate
  set pushed := ((withStatic vm key).push (ofBool (s.statics key).isNone)).advance n with hpushed
  have hstack : pushed.operandStack =
      (withStatic vm key).operandStack ++ [ofBool (s.statics key).isNone] := rfl
  have htest := VM.step_testJumpIfFalse (f := f) (show pushed.rest = _ from hrest1) hst.short hstack
  have hreach : Run.Reaches (VM.step f) vm ((withStatic vm key).advance
      (n + (m + if (s.statics key).isNone then 0 else code.length))) := by
    refine (Run.Reaches.single hcreate).tail (htest.trans ?_)
    rw [hpushed]
    cases (s.statics key).isNone <;> simp [VM.push_eq, ofBool, hm]
  rw [Command.eval, ← hkey]
  cases hold : s.statics key with
  | some old =>
    simp only [hold, Option.isNone_some, Bool.false_eq_true, if_false] at hreach hr1 hst1 hscope
    exact ⟨_, hreach, by simp [hn, hm, withStatic], rfl, hscope, hr1.advance _, hst1 _⟩
  | none =>
    simp only [hold, Option.isNone_none, if_true, Nat.add_zero] at hreach hr1 hst1 hscope
    set created := (s.setStatic key 0).declare name (.static key) with hcreated
    have hrest2 : ((withStatic vm key).advance (n + m)).rest =
        init.serialize d.address ++ (v.serializeStore ++ tail) := by
      rw [← VM.advance_advance, hm, VM.rest_advance hrest1, hcode, List.append_assoc]
    have hinit' : init.inScope created.scope := hscope ▸ Initializer.inScope_append _ hinit
    have hvscope : v.inScope created.scope := by
      simp [hscope, hv, VariableReference.inScope]
    have hlookup : created.env.lookup name = some (.static key) := by
      refine lookup_of_getElem? (k := s.env.length) hr1.names ?_
      simp [hcreated, EvalState.declare, EvalState.setStatic]
    have hfollows := Follows.withValue (f := f) (k := fun val => created.assign v.name val)
      (hr1.advance (n + m))
      (init.leads d.address (hr1.advance (n + m)) (hst1 m) hinit' hrest2) fun val =>
        VariableReference.store_follows _ ((hr1.advance (n + m)).push val _) ((hst1 m).push val _)
          hvscope (VM.rest_advance (show (VM.push _ val).rest = _ from hrest2))
    simp only [EvalState.assign, hv, VariableReference.name, hlookup] at hfollows
    have hcount : (opArg .createStaticVar guid ++
        (opArg .testJumpIfFalse code.length ++ code)).length =
        n + m + ((init.serialize d.address).length + v.serializeStore.length) := by
      simp [hn, hm, hcode, Nat.add_assoc]
    rw [hcount, ← hscope]
    exact .of_reaches hreach rfl rfl hfollows

/-! ### Assignments and output -/

theorem numericAssignment_follows {d : Driver} {v : VariableReference} {value : IntExpression}
    {tail : Bytes} (hr : Represents printed s [] vm) (hst : Steady s vm)
    (hv : v.inScope s.scope) (hvalue : value.inScope s.scope)
    (hrest : vm.rest = (Command.numericAssignment v value).code d ++ tail) :
    Follows f printed s.scope vm ((Command.numericAssignment v value).code d).length
      ((Command.numericAssignment v value).eval s) := by
  have hcode : (Command.numericAssignment v value).code d =
      value.serialize d.address ++ v.serializeStore := by simp [Command.code, Command.serialize]
  rw [hcode, List.append_assoc] at hrest
  rw [hcode, List.length_append, Command.eval]
  refine Follows.withValue hr (value.leads d.address hr hst hvalue hrest) fun val => ?_
  exact VariableReference.store_follows _ (hr.push val _) (hst.push val _) hv
    (VM.rest_advance (show (vm.push val).rest = _ from hrest))

theorem booleanAssignment_follows {d : Driver} {v : VariableReference}
    {value : BooleanExpression} {tail : Bytes} (hr : Represents printed s [] vm)
    (hst : Steady s vm) (hv : v.inScope s.scope) (hvalue : value.inScope s.scope)
    (hrest : vm.rest = (Command.booleanAssignment v value).code d ++ tail) :
    Follows f printed s.scope vm ((Command.booleanAssignment v value).code d).length
      ((Command.booleanAssignment v value).eval s) := by
  have hcode : (Command.booleanAssignment v value).code d =
      value.serialize d.address ++ (OpCode.boolProject.toByte :: v.serializeStore) := by
    simp [Command.code, Command.serialize]
  rw [hcode, List.append_assoc] at hrest
  rw [hcode, List.length_append, Command.eval]
  refine Follows.withValue hr (value.leads d.address hr hst hvalue hrest) fun val => ?_
  have hrest1 := VM.rest_advance (show (vm.push val).rest = _ from hrest)
  have hproject : VM.step f ((vm.push val).advance (value.serialize d.address).length) =
      .inl ((vm.push (ofBool (val != 0))).advance ((value.serialize d.address).length + 1)) := by
    rw [VM.step_of_rest hrest1, VM.executeInsn, VM.getFromStack_eq rfl]
    simp [VM.proceed, VM.push_eq]
  rw [List.length_cons, Nat.add_comm]
  refine .of_reaches (.single hproject) (by simp [Nat.add_assoc]) rfl ?_
  refine VariableReference.store_follows tail (hr.push _ _) (hst.push _ _) hv ?_
  rw [← VM.advance_advance]
  exact VM.rest_advance_one (show ((vm.push _).advance _).rest = _ from hrest1)

/-- A text goes to the output. -/
theorem Represents.print (h : Represents printed s [] vm) (text acc : Bytes) (n : Nat) :
    Represents printed (s.print text) []
      { vm.advance n with stringAcc := acc, output := vm.output ++ [text] } :=
  ⟨h.stack, h.names, h.alive, h.statics, by simp [EvalState.print, h.output]⟩

theorem printString_follows {d : Driver} {text tail : Bytes} (hr : Represents printed s [] vm)
    (hst : Steady s vm) (hrest : vm.rest = (Command.printString text).code d ++ tail) :
    Follows f printed s.scope vm ((Command.printString text).code d).length
      ((Command.printString text).eval s) := by
  have hcode : (Command.printString text).code d =
      OpCode.loadString.toByte :: appendString text ++ [OpCode.printStr.toByte] := by
    simp [Command.code, Command.serialize]
  rw [hcode, List.append_assoc] at hrest
  rw [hcode, Command.eval]
  have hload := VM.step_loadString (f := f) hrest hst.short
  have hrest1 := VM.rest_advance hrest
  have hprint : VM.step f { vm.advance (1 + (appendString text).length) with stringAcc := text } =
      .inl { vm.advance (1 + (appendString text).length + 1) with
        stringAcc := text, output := vm.output ++ [text] } := by
    have hop : VM.rest { vm.advance (1 + (appendString text).length) with stringAcc := text } =
        OpCode.printStr.toByte :: tail := by
      rw [Nat.add_comm]
      exact hrest1
    rw [VM.step_of_rest hop]
    rfl
  have hst' := hst.advance (1 + (appendString text).length + 1)
  refine ⟨_, .tail (.single hload) hprint, ?_, rfl, rfl, hr.print text text _, hst'.fp,
    hst'.accessError, hst'.block, hst'.short, hst'.slots, hst'.references⟩
  simp only [VM.advance_ip, List.length_append, List.length_cons, List.length_nil]
  omega

theorem printInt_follows {d : Driver} {value : IntExpression} {tail : Bytes}
    (hr : Represents printed s [] vm) (hst : Steady s vm) (hvalue : value.inScope s.scope)
    (hrest : vm.rest = (Command.printInt value).code d ++ tail) :
    Follows f printed s.scope vm ((Command.printInt value).code d).length
      ((Command.printInt value).eval s) := by
  have hcode : (Command.printInt value).code d =
      value.serialize d.address ++ [OpCode.printNum.toByte] := by
    simp [Command.code, Command.serialize]
  rw [hcode, List.append_assoc] at hrest
  rw [hcode, List.length_append, Command.eval]
  refine Follows.withValue hr (value.leads d.address hr hst hvalue hrest) fun val => ?_
  have hprint : VM.step f ((vm.push val).advance (value.serialize d.address).length) =
      .inl { vm.advance ((value.serialize d.address).length + 1) with
        output := vm.output ++ [decimal val] } := by
    have hop : ((vm.push val).advance (value.serialize d.address).length).rest =
        OpCode.printNum.toByte :: tail := VM.rest_advance hrest
    rw [VM.step_of_rest hop, VM.executeInsn, VM.getFromStack_eq rfl]
    rfl
  have hst' := hst.advance ((value.serialize d.address).length + 1)
  exact ⟨_, .single hprint, rfl, rfl, rfl, hr.print (decimal val) vm.stringAcc _, hst'.fp,
    hst'.accessError, hst'.block, hst'.short, hst'.slots, hst'.references⟩

/-! ### Blocks and conditionals -/

/-- The end of a braced block, which checks the stack and drops the variables of the block. -/
theorem leave_follows {g : Scope} {m : Nat} {trimTo : Int} {tail : Bytes}
    (hr : Represents printed s [] vm) (hst : Steady s vm) (hg : g <+: s.scope)
    (hm : m = g.length)
    (htrim : trimTo = if s.scope.length = g.length then -1 else (g.length : Int))
    (hrest : vm.rest = opArg .checkStackLength s.scope.length ++
      ((if 0 ≤ trimTo then opArg .leave (s.scope.length - trimTo) else []) ++ tail)) :
    Follows f printed g vm
      ((opArg .checkStackLength s.scope.length).length +
        (if 0 ≤ trimTo then opArg .leave (s.scope.length - trimTo) else []).length)
      (.normal, s.leave m) := by
  have hroom := VM.ip_add_length_le hrest (by simp [opArg])
  have hslots := hst.slots
  have hshort := hst.short
  have hlen : vm.operandStack.length = s.scope.length := by rw [hr.length_stack, s.length_scope]
  have hsmall : s.scope.length < 2 ^ 31 := by
    rw [s.length_scope]
    omega
  have hcheck := VM.step_checkStackLength (f := f) hrest (by rw [hst.fp]; omega)
    (by rw [hst.fp, hlen, Nat.zero_add])
  refine .of_reaches (.single hcheck) rfl rfl ?_
  by_cases hsame : s.scope.length = g.length
  · rw [if_pos hsame] at htrim
    have hleave : s.leave m = s := by
      rw [EvalState.leave, hm, ← hsame, s.length_scope, List.take_length]
    rw [htrim, hleave]
    exact ⟨_, .refl _, rfl, rfl, (hg.eq_of_length hsame.symm).symm, hr.advance _, hst.advance _⟩
  · rw [if_neg hsame] at htrim
    rw [htrim, if_pos (by omega)] at hrest ⊢
    have hlen' : (vm.advance (opArg .checkStackLength (s.scope.length : Int)).length).operandStack.length =
        s.scope.length := hlen
    have hleave := VM.step_leave (f := f) hlen' hg.length_le hsmall (VM.rest_advance hrest)
    obtain ⟨words, hstack, hwords⟩ := hr.stack
    rw [List.append_nil] at hstack
    refine ⟨_, .single hleave, ?_, rfl, ?_, ⟨⟨words.take m, ?_, ?_⟩, ?_, ?_, hr.statics, hr.output⟩,
      hst.fp, hst.accessError, hst.block, hst.short, ?_, ?_⟩
    · rfl
    · simp only [EvalState.leave, EvalState.scope, List.map_take]
      exact (hm ▸ List.prefix_iff_eq_take.mp hg).symm
    · simp [hstack, hm]
    · exact List.forall₂_take m hwords
    · simpa [EvalState.leave, List.map_take] using hr.names.sublist (List.take_sublist _ _)
    · exact fun n guid hmem => hr.alive n guid (List.mem_of_mem_take hmem)
    · simp only [EvalState.leave, List.length_take]
      exact Nat.le_add_right_of_le (Nat.le_add_right_of_le (Nat.le_trans (Nat.min_le_right _ _) hslots))
    · exact Nat.le_add_right_of_le (Nat.le_add_right_of_le hst.references)

/-- `JUMP` over `code`. -/
theorem step_jump {code tail : Bytes} (hst : Steady s vm)
    (hrest : vm.rest = opArg .jump code.length ++ (code ++ tail)) :
    VM.step f vm = .inl (vm.advance ((opArg .jump code.length).length + code.length)) := by
  have hlen := congrArg List.length hrest
  have hshort := hst.short
  simp only [VM.length_rest, List.length_append] at hlen
  have hjump : (opArg .jump (code.length : Int)).length ≠ 0 := by simp
  set n := (opArg .jump (code.length : Int)).length with hn
  have hblocks : 0 < vm.blocks.length := by
    by_contra hnone
    have hnil : vm.blocks = [] := List.length_eq_zero_iff.mp (by omega)
    simp [VM.code, hnil] at hlen
    omega
  have hip : (vm.advance n).getIp = vm.ip + n := by
    simp [VM.getIp, VM.advance, hst.block]
  have htarget : toUnsigned ((vm.advance n).getIp + (Int32.ofInt (code.length : Int)).toInt) =
      vm.ip + n + code.length := by
    rw [hip, VM.toInt_ofInt_natCast (by omega), ← Int.natCast_add,
      VM.toUnsigned_natCast (by omega)]
  have hblock : (vm.ip + n + code.length) >>> blockCodeIpShift = 0 := by
    rw [Nat.shiftRight_eq_div_pow, Nat.div_eq_of_lt]
    simp only [blockCodeIpShift]
    omega
  have hofs : (vm.ip + n + code.length) % 2 ^ blockCodeIpShift = vm.ip + n + code.length := by
    refine Nat.mod_eq_of_lt ?_
    simp only [blockCodeIpShift]
    omega
  have hcode : (vm.advance n).blocks.getD 0 [] = vm.code := by
    rw [VM.code, hst.block]
    rfl
  rw [VM.step_of_rest (VM.rest_opArg hrest), VM.executeInsn, VM.getVarint_opArg hrest, ← hn,
    htarget, VM.jump, VM.jump?]
  simp only [hblock, hofs, hcode]
  rw [if_neg (by show ¬_ ≥ vm.blocks.length; omega), if_neg (by omega)]
  simp [VM.proceed, VM.advance, hst.block, Nat.add_assoc]

end

mutual

/-- Running the code of a command does what the evaluation of the command does. -/
theorem Command.follows {W H : Type} {f : VariableFactory W H} {printed : List Bytes}
    (d : Driver) : (c : Command) → ∀ {s : EvalState} {vm : VM W H} {g : Scope} {tail : Bytes},
    Represents printed s [] vm → Steady s vm → c.scope s.scope = some g →
    vm.rest = c.code d ++ tail → Follows f printed g vm (c.code d).length (c.eval s)
  | .empty, s, vm, g, tail, hr, hst, hs, hrest => by
    cases hs
    exact ⟨_, .refl _, rfl, rfl, rfl, hr, hst⟩
  | .commandSequence cs trimFrom trimTo, s, vm, g, tail, hr, hst, hs, hrest => by
    obtain ⟨g1, hcs, hcase⟩ := Command.scope_commandSequence hs
    have hcode : (Command.commandSequence cs trimFrom trimTo).code d = Command.codeAll d cs ++
        (if 0 ≤ trimFrom then opArg .checkStackLength trimFrom ++
          (if 0 ≤ trimTo then opArg .leave (trimFrom - trimTo) else []) else []) := by
      rw [Command.code, Command.serialize, Command.serializeAll_eq d cs hcs]
      by_cases hfrom : 0 ≤ trimFrom <;> by_cases hto : 0 ≤ trimTo <;> simp [hfrom, hto]
    rw [hcode, List.append_assoc] at hrest
    rw [hcode, List.length_append, Command.eval]
    refine Follows.andThen _ (Command.followsAll d cs hr hst hcs hrest) ?_
    intro s1 vm1 hip hblocks hscope hr1 hst1
    have hrest1 := rest_of_blocks hst hst1 hip hblocks hrest
    rcases hcase with ⟨rfl, -, rfl⟩ | ⟨rfl, htrim, rfl⟩
    · exact ⟨_, .refl _, rfl, rfl, hscope, hr1, hst1⟩
    · subst hscope
      have hpos : (0 : Int) ≤ s1.scope.length := by omega
      rw [if_pos hpos, List.append_assoc] at hrest1
      rw [if_pos hpos, if_pos hpos, List.length_append]
      exact leave_follows hr1 hst1 (Command.scopeAll_extends cs hcs) s.length_scope.symm htrim
        hrest1
  | .staticVarCreate .., _, _, _, _, hr, hst, hs, hrest => staticVarCreate_follows hr hst hs hrest
  | .localVarCreate .., _, _, _, _, hr, hst, hs, hrest => localVarCreate_follows hr hst hs hrest
  | .numericAssignment v value, s, vm, g, tail, hr, hst, hs, hrest => by
    obtain ⟨hv, hs⟩ := Option.ite_none_right_eq_some.mp hs
    cases hs
    rw [Bool.and_eq_true] at hv
    exact numericAssignment_follows hr hst hv.1 hv.2 hrest
  | .booleanAssignment v value, s, vm, g, tail, hr, hst, hs, hrest => by
    obtain ⟨hv, hs⟩ := Option.ite_none_right_eq_some.mp hs
    cases hs
    rw [Bool.and_eq_true] at hv
    exact booleanAssignment_follows hr hst hv.1 hv.2 hrest
  | .ifThen condition thenCase, s, vm, g, tail, hr, hst, hs, hrest => by
    obtain ⟨hcond, hthen, rfl⟩ := Command.scope_ifThen hs
    have hcode : (Command.ifThen condition thenCase).code d =
        condition.serialize d.address ++
          (opArg .testJumpIfFalse (thenCase.code d).length ++ thenCase.code d) := by
      simp [Command.code, Command.serialize]
    rw [hcode, List.append_assoc, List.append_assoc] at hrest
    rw [hcode, List.length_append, Command.eval]
    refine Follows.withValue hr (condition.leads d.address hr hst hcond hrest) fun v => ?_
    have hpushed : ((vm.push v).advance (condition.serialize d.address).length).operandStack =
        vm.operandStack ++ [v] := rfl
    have htest := VM.step_testJumpIfFalse (f := f)
      (VM.rest_advance (show (vm.push v).rest = _ from hrest)) hst.short hpushed
    set n := (condition.serialize d.address).length
    set m := (opArg .testJumpIfFalse ((thenCase.code d).length : Int)).length
    have hvm : (((vm.push v).advance n).withStack vm.operandStack) = vm.advance n := rfl
    rw [hvm, VM.advance_advance] at htest
    rw [List.length_append]
    by_cases hv : v = 0
    · rw [if_pos hv] at htest
      rw [if_neg (not_not.mpr hv)]
      exact ⟨_, .single htest, by simp [Nat.add_assoc, m], rfl, rfl, hr.advance _, hst.advance _⟩
    · rw [if_neg hv, Nat.add_zero] at htest
      rw [if_pos hv]
      refine .of_reaches (.single htest) (by simp [Nat.add_assoc, m]) rfl ?_
      have hrest1 : (vm.advance (n + m)).rest = thenCase.code d ++ tail := by
        rw [← VM.advance_advance]
        exact VM.rest_advance (VM.rest_advance hrest)
      exact thenCase.follows d (hr.advance _) (hst.advance _) hthen hrest1
  | .ifThenElse condition thenCase elseCase, s, vm, g, tail, hr, hst, hs, hrest => by
    obtain ⟨hcond, hthen, helse, rfl⟩ := Command.scope_ifThenElse hs
    set jump := opArg .jump (elseCase.code d).length with hjump
    have hcode : (Command.ifThenElse condition thenCase elseCase).code d =
        condition.serialize d.address ++
          (opArg .testJumpIfFalse (thenCase.code d ++ jump).length ++
            ((thenCase.code d ++ jump) ++ elseCase.code d)) := by
      have hd : (thenCase.serialize false d []).2 = d :=
        congrArg Prod.snd (Command.serialize_eq d thenCase hthen false [])
      simp [Command.code, Command.serialize, hd, hjump]
    rw [hcode, List.append_assoc, List.append_assoc, List.append_assoc (thenCase.code d ++ jump)]
      at hrest
    rw [hcode, List.length_append, Command.eval]
    refine Follows.withValue hr (condition.leads d.address hr hst hcond hrest) fun v => ?_
    have hpushed : ((vm.push v).advance (condition.serialize d.address).length).operandStack =
        vm.operandStack ++ [v] := rfl
    have htest := VM.step_testJumpIfFalse (f := f)
      (VM.rest_advance (show (vm.push v).rest = _ from hrest)) hst.short hpushed
    set n := (condition.serialize d.address).length
    set m := (opArg .testJumpIfFalse ((thenCase.code d ++ jump).length : Int)).length with hm
    have hvm : (((vm.push v).advance n).withStack vm.operandStack) = vm.advance n := rfl
    rw [hvm, VM.advance_advance] at htest
    have hrest1 : (vm.advance (n + m)).rest =
        thenCase.code d ++ (jump ++ (elseCase.code d ++ tail)) := by
      rw [← VM.advance_advance, ← List.append_assoc]
      exact VM.rest_advance (VM.rest_advance hrest)
    rw [List.length_append, ← hm]
    by_cases hv : v = 0
    · rw [if_pos hv] at htest
      have hlength : (thenCase.code d ++ jump ++ elseCase.code d).length =
          (thenCase.code d ++ jump).length + (elseCase.code d).length := List.length_append
      rw [if_neg (not_not.mpr hv), hlength, ← Nat.add_assoc]
      refine .of_reaches (.single htest) (by simp [Nat.add_assoc]) rfl ?_
      have hrest2 : (vm.advance (n + (m + (thenCase.code d ++ jump).length))).rest =
          elseCase.code d ++ tail := by
        rw [← Nat.add_assoc, ← VM.advance_advance]
        exact VM.rest_advance (by simpa using hrest1)
      exact elseCase.follows d (hr.advance _) (hst.advance _) helse hrest2
    · rw [if_neg hv, Nat.add_zero] at htest
      rw [if_pos hv]
      refine .of_reaches (.single htest) (by simp [Nat.add_assoc]) rfl ?_
      have hbranch := Follows.andThen s.scope (k := fun s => (.normal, s))
        (m := (jump ++ elseCase.code d).length)
        (thenCase.follows (f := f) d (hr.advance (n + m)) (hst.advance (n + m)) hthen hrest1) ?_
      · have hsame (r : Ending × EvalState) : andThen r (fun s => (.normal, s)) = r := by
          obtain ⟨_ | _, _⟩ := r <;> rfl
        rw [hsame] at hbranch
        convert hbranch using 1
        simp
      · intro s1 vm1 hip hblocks hscope hr1 hst1
        have hrest2 := rest_of_blocks (hst.advance (n + m)) hst1 hip hblocks hrest1
        exact ⟨_, .single (step_jump hst1 hrest2), by simp [hjump], rfl, hscope, hr1.advance _,
          hst1.advance _⟩
  | .printString text, s, vm, g, tail, hr, hst, hs, hrest => by
    cases hs
    exact printString_follows hr hst hrest
  | .printInt value, s, vm, g, tail, hr, hst, hs, hrest => by
    obtain ⟨hvalue, hs⟩ := Option.ite_none_right_eq_some.mp hs
    cases hs
    exact printInt_follows hr hst hvalue hrest
  | .terminate, s, vm, g, tail, hr, hst, hs, hrest => by
    cases hs
    refine ⟨vm, vm.advance 1, .refl _, by simp [hrest, Command.code, Command.serialize], ?_,
      hr.advance 1⟩
    have hop : vm.rest = OpCode.terminate.toByte :: tail := hrest
    exact VM.step_of_rest hop
  | .indirectVarCreate .., _, _, _, _, _, _, hs, _ | .function .., _, _, _, _, _, _, hs, _
  | .functionCall _, _, _, _, _, _, _, hs, _ => by cases hs

theorem Command.followsAll {W H : Type} {f : VariableFactory W H} {printed : List Bytes}
    (d : Driver) : (cs : List Command) →
    ∀ {s : EvalState} {vm : VM W H} {g : Scope} {tail : Bytes},
    Represents printed s [] vm → Steady s vm → Command.scopeAll s.scope cs = some g →
    vm.rest = Command.codeAll d cs ++ tail →
    Follows f printed g vm (Command.codeAll d cs).length (Command.evalAll s cs)
  | [], s, vm, g, tail, hr, hst, hs, hrest => by
    cases hs
    exact ⟨_, .refl _, rfl, rfl, rfl, hr, hst⟩
  | c :: cs, s, vm, g, tail, hr, hst, hs, hrest => by
    simp only [Command.scopeAll, bind, Option.bind_eq_some_iff] at hs
    obtain ⟨g1, hc, hcs⟩ := hs
    rw [Command.codeAll_cons d hc hcs, List.append_assoc] at hrest
    rw [Command.codeAll_cons d hc hcs, List.length_append, Command.evalAll]
    refine Follows.andThen _ (c.follows d hr hst hc hrest) ?_
    intro s1 vm1 hip hblocks hscope hr1 hst1
    exact Command.followsAll d cs hr1 hst1 (hscope ▸ hcs)
      (rest_of_blocks hst hst1 hip hblocks hrest)

end

/-! ### Running a program -/

section

variable {W H : Type} {f : VariableFactory W H}

theorem serializePreamble_eq_nil {g g' : Scope} {cs : List Command}
    (h : Command.scopeAll g cs = some g') : cs.flatMap Command.serializePreamble = [] := by
  induction cs generalizing g with
  | nil => rfl
  | cons c cs ih =>
    simp only [Command.scopeAll, bind, Option.bind_eq_some_iff] at h
    obtain ⟨g1, hc, hcs⟩ := h
    rw [List.flatMap_cons, ih hcs, List.append_nil]
    cases c <;> first | rfl | cases hc

theorem Driver.serialize_eq {g g' : Scope} (d : Driver) {cs : List Command}
    (h : Command.scopeAll g cs = some g') :
    (d.serialize cs).1 = OpCode.ifPreamble.toByte ::
      (opArg .testJumpIfFalse [OpCode.terminate.toByte].length ++
        ([OpCode.terminate.toByte] ++ Command.codeAll d cs)) := by
  simp only [Driver.serialize, serializePreamble_eq_nil h, List.nil_append]
  rw [Command.serializeAll_eq d cs h]
  simp

/-- How the last round of a run, which starts in `last` and gives the result `r`, shows the ending:
at the end of the code, at a `TERMINATE`, or with the error of a division by zero. -/
def EndsAs (last : VM W H) (r : Verdict × VM W H) : Ending → Prop
  | .normal => last.rest = [] ∧ r.1 = .success
  | .terminated => last.rest.head? = some OpCode.terminate.toByte ∧ r.1 = .success
  | .divByZero => r.1 = .exception ∧ r.2.error = some .divByZero
  | .stuck => False

/-- What is left of a run that follows an evaluation to the end of the code. -/
theorem Follows.ends {g : Scope} {printed : List Bytes} {s : EvalState} {vm : VM W H}
    {code : Bytes} {r : Ending × EvalState} (hst : Steady s vm) (hrest : vm.rest = code)
    (h : Follows f printed g vm code.length r) :
    ∃ last result temps, Run.Reaches (VM.step f) vm last ∧ VM.step f last = .inr result ∧
      EndsAs last result r.1 ∧ Represents printed r.2 temps result.2 ∧
      (r.1 ≠ .divByZero → temps = []) := by
  match r with
  | (.normal, s') =>
    obtain ⟨vm', hrun, hip, hblocks, -, hr, hst'⟩ := h
    have hend : vm'.rest = [] :=
      rest_of_blocks hst hst' hip hblocks (show vm.rest = code ++ [] by rw [hrest, List.append_nil])
    exact ⟨vm', (.success, vm'), [], hrun, VM.step_of_eof hend, ⟨hend, rfl⟩, hr, fun _ => rfl⟩
  | (.terminated, s') =>
    obtain ⟨last, vm', hrun, hlast, hstep, hr⟩ := h
    exact ⟨last, _, [], hrun, hstep, ⟨hlast, rfl⟩, hr, fun _ => rfl⟩
  | (.divByZero, s') =>
    obtain ⟨temps, vm', ⟨last, hrun, hstep⟩, herr, hr⟩ := h
    exact ⟨last, _, temps, hrun, hstep, ⟨rfl, herr⟩, hr, fun hne => absurd rfl hne⟩
  | (.stuck, _) => exact h.elim

/-- `code`, run in block 0 of the cleared machine with the preamble off, prints what the evaluation
prints, holds the same variables and static variables at the end, and ends in the same way. -/
def RunsLike (f : VariableFactory W H) (vm : VM W H) (code : Bytes) (r : Ending × EvalState) :
    Prop :=
  ∃ loaded fuel last result temps, vm.setBlockCode 0 code = some loaded ∧
    (loaded.clear.setPreamble false).executeBlock f fuel 0 = some result ∧
    Run.Reaches (VM.step f) ((loaded.clear.setPreamble false).enterBlock 0) last ∧
    VM.step f last = .inr result ∧ EndsAs last result r.1 ∧
    Represents vm.output r.2 temps result.2 ∧ (r.1 ≠ .divByZero → temps = [])

/-- Compiler correctness for programs without functions and exported variables. -/
theorem serialize_runs_like_eval (f : VariableFactory W H) (d : Driver)
    (commands : List Command) (statics : UInt32 → Option Int32) (vm : VM W H)
    (hscope : (Command.scopeAll [] commands).isSome)
    (hshort : (d.serialize commands).1.length < 2 ^ 16)
    (hstatics : vm.externalVariables = fun guid => (statics guid).map .static) :
    RunsLike f vm (d.serialize commands).1 (Command.evalAll (.start statics) commands) := by
  obtain ⟨g, hg⟩ := Option.isSome_iff_exists.mp hscope
  obtain ⟨loaded, hload⟩ := VM.setBlockCode_isSome vm 0 hshort
  obtain ⟨-, hb, hcode, hvm⟩ := VM.setBlockCode_eq_some hload
  have henter := VM.enterBlock_eq (loaded.clear.setPreamble false) hb
  set start := (loaded.clear.setPreamble false).enterBlock 0
  have hstartCode : start.code = (d.serialize commands).1 := by rw [henter]; exact hcode
  have hstartRest : start.rest = (d.serialize commands).1 := by
    rw [VM.rest, hstartCode, henter]
    rfl
  rw [d.serialize_eq hg] at hstartRest
  have hoff : start.isPreamble = false := by rw [henter]; rfl
  have hskip := VM.reaches_skipPreamble (f := f) hstartRest (hstartCode ▸ hshort) hoff
  set n := 1 + ((opArg .testJumpIfFalse [OpCode.terminate.toByte].length).length +
    [OpCode.terminate.toByte].length)
  have hr : Represents vm.output (.start statics) [] (start.advance n) := by
    rw [henter, hvm]
    exact ⟨⟨[], rfl, .nil⟩, .nil, by simp [EvalState.start], hstatics, by
      simp [EvalState.start, VM.advance, VM.setPreamble, VM.clear]⟩
  have hst : Steady (.start statics) (start.advance n) := by
    refine ⟨?_, ?_, ?_, hstartCode ▸ hshort, ?_, ?_⟩ <;>
      simp [henter, VM.advance, VM.clear, VM.setPreamble, EvalState.start]
  have hrest : (start.advance n).rest = Command.codeAll d commands := by
    rw [← VM.advance_advance, ← VM.advance_advance]
    exact VM.rest_advance (VM.rest_advance (VM.rest_advance_one hstartRest))
  obtain ⟨last, result, temps, hrun, hstep, hends, hrep, htemps⟩ :=
    (Command.followsAll (f := f) d commands hr hst hg
      (by rw [hrest, List.append_nil])).ends hst hrest
  obtain ⟨fuel, hfuel⟩ := Run.Halts.run ⟨last, hskip.trans hrun, hstep⟩
  exact ⟨loaded, fuel, last, result, temps, hload, hfuel, hskip.trans hrun, hstep, hends, hrep,
    htemps⟩

/-- `int a = 3; static bool b = a < 4; if (b && a / 2 == 1) { int c = a * 7; print("c=", c); }
else { terminate(); } a = a % (a - 3);` -/
def sampleProgram : List Command :=
  let a : IntExpression := .intVariable (.localVar "a" 0)
  [.localVarCreate "a" .int 0 (.int (.intConstant 3)),
    .staticVarCreate "b" .bool 7 1 (.bool (.intComp .lt a (.intConstant 4))),
    .ifThenElse
      (.boolAnd (.boolVariable (.globalVar "b" 1))
        (.intComp .eq (.intBinaryExpression .div a (.intConstant 2)) (.intConstant 1)))
      (.commandSequence
        [.localVarCreate "c" .int 2 (.int (.intBinaryExpression .mul a (.intConstant 7))),
          .commandSequence
            [.printString (textBytes "c="), .printInt (.intVariable (.localVar "c" 2))] (-1) (-1)]
        3 2)
      (.commandSequence [.terminate] 2 (-1)),
    .numericAssignment (.localVar "a" 0)
      (.intBinaryExpression .mod a (.intBinaryExpression .minus a (.intConstant 3)))]

/-- The sample program prints its text, and then divides by zero. -/
theorem sampleProgram_runs :
    RunsLike (W := Unit) (H := Empty)
      ⟨fun w request => (none, request, w), fun w _ _ => (0, false, w), fun w _ _ _ => (false, w)⟩
      (.fresh ()) ((Driver.start 1).serialize sampleProgram).1
      (Command.evalAll (.start fun _ => none) sampleProgram) ∧
    (Command.evalAll (.start fun _ => none) sampleProgram).1 = .divByZero ∧
    (Command.evalAll (.start fun _ => none) sampleProgram).2.output =
      [textBytes "c=", textBytes "21"] := by
  refine ⟨serialize_runs_like_eval _ _ _ _ _ (by decide) (by decide) (by rfl), by decide, ?_⟩
  decide

end

end OpenmrnCue.Logic
