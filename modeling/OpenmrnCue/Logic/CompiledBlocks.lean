import OpenmrnCue.Logic.BlockIndependence
import OpenmrnCue.Logic.CallSites
import OpenmrnCue.Logic.Runner

/-! Compiled programs in different blocks.  The code of a program that calls no function executes,
behind its preamble, neither `CALL` nor `CREATE_VAR`, and it jumps forward only and to what it has.
So it does the same in every block. -/

namespace OpenmrnCue.Logic

/-! ### Code without calls -/

/-- An instruction that does not depend on the block, if a jump stays in it. -/
def Item.isPlain : Item → Bool
  | .insn .call => false
  | .insnArg .call _ => false
  | .createVar _ _ => false
  | .callSite _ => false
  | _ => true

/-- No instruction depends on the block. -/
def Plain (items : List Item) : Prop := ∀ item ∈ items, item.isPlain = true

theorem plain_nil : Plain [] := by simp [Plain]

theorem plain_cons {item : Item} {items : List Item} (hitem : item.isPlain = true)
    (h : Plain items) : Plain (item :: items) := by
  intro other hother
  rcases List.mem_cons.mp hother with rfl | hother
  · exact hitem
  · exact h other hother

theorem Plain.append {items items' : List Item} (h : Plain items) (h' : Plain items') :
    Plain (items ++ items') := by
  intro item hitem
  rcases List.mem_append.mp hitem with hitem | hitem
  · exact h item hitem
  · exact h' item hitem

theorem plain_singleton {item : Item} (hitem : item.isPlain = true) : Plain [item] :=
  plain_cons hitem plain_nil

theorem VariableReference.plain_emitFetch (v : VariableReference) : Plain v.emitFetch := by
  cases v <;> simp [emitFetch, Plain, Item.isPlain]

theorem VariableReference.plain_emitStore (v : VariableReference) : Plain v.emitStore := by
  cases v <;> simp [emitStore, Plain, Item.isPlain]

theorem VariableReference.plain_emitRef (v : VariableReference) : Plain v.emitRef := by
  cases v <;> simp [emitRef, Plain, Item.isPlain]

section

variable (address : String → Int)

mutual

theorem IntExpression.plain : (e : IntExpression) → ∀ (depth : Nat), e.calls = [] →
    Plain (e.emit address depth)
  | .intVariable v, _, _ => v.plain_emitFetch
  | .intConstant value, _, _ => by
    simp only [IntExpression.emit]
    split
    · exact plain_singleton rfl
    · split <;> exact plain_singleton rfl
  | .intBinaryExpression op left right, depth, h => by
    simp only [IntExpression.calls, List.append_eq_nil_iff] at h
    refine ((left.plain depth h.1).append (right.plain _ h.2)).append (plain_singleton ?_)
    cases op <;> rfl
  | .intFunctionCall call, _, h => by simp [IntExpression.calls] at h

theorem BooleanExpression.plain : (e : BooleanExpression) → ∀ (depth : Nat), e.calls = [] →
    Plain (e.emit address depth)
  | .boolVariable v, _, _ => v.plain_emitFetch
  | .booleanConstant value, _, _ => by
    cases value <;> exact plain_singleton rfl
  | .boolNot left, depth, h => (left.plain depth h).append (plain_singleton rfl)
  | .intComp op left right, depth, h => by
    simp only [BooleanExpression.calls, List.append_eq_nil_iff] at h
    refine ((left.plain depth h.1).append (right.plain _ h.2)).append (plain_singleton ?_)
    cases op <;> rfl
  | .boolCmp op left right, depth, h => by
    simp only [BooleanExpression.calls, List.append_eq_nil_iff] at h
    refine ((left.plain depth h.1).append (right.plain _ h.2)).append (plain_singleton ?_)
    cases op <;> rfl
  | .boolAnd left right, depth, h | .boolOr left right, depth, h => by
    simp only [BooleanExpression.calls, List.append_eq_nil_iff] at h
    exact ((left.plain depth h.1).append (plain_cons rfl (plain_singleton rfl))).append
      (plain_cons rfl (right.plain depth h.2))
  | .boolFunctionCall call, _, h => by simp [BooleanExpression.calls] at h

end

theorem Initializer.plain (init : Initializer) (depth : Nat) (h : init.calls = []) :
    Plain (init.emit address depth) := by
  cases init with
  | int e => exact e.plain address depth h
  | bool e => exact e.plain address depth h

end

mutual

theorem Command.plain : (c : Command) → ∀ (enclosing : List String) (root : Bool) (d : Driver)
    (ofs : Nat), c.calls enclosing = [] → Plain (c.emit root d ofs).items
  | .empty, _, _, _, _, _ => plain_nil
  | .printString text, _, _, _, _, _ => plain_cons rfl (plain_singleton rfl)
  | .terminate, _, _, _, _, _ => plain_singleton rfl
  | .indirectVarCreate .., _, _, _, _, _ => plain_cons rfl (plain_cons rfl (plain_singleton rfl))
  | .commandSequence commands trimStackFrom trimStackTo, enclosing, root, d, ofs, h => by
    refine Plain.append (Command.plainAll commands enclosing root d ofs h) ?_
    split
    · refine plain_cons rfl ?_
      split
      · exact plain_singleton rfl
      · exact plain_nil
    · exact plain_nil
  | .staticVarCreate name type guid fpOffset init, _, _, d, _, h => by
    rw [Command.calls, List.map_eq_nil_iff] at h
    exact plain_cons rfl (plain_cons rfl ((init.plain d.address 1 h).append
      (VariableReference.plain_emitStore _)))
  | .localVarCreate name type fpOffset init, _, _, d, _, h => by
    rw [Command.calls, List.map_eq_nil_iff] at h
    exact plain_cons rfl (init.plain d.address 0 h)
  | .numericAssignment var value, _, _, d, _, h => by
    rw [Command.calls, List.map_eq_nil_iff] at h
    exact (value.plain d.address 0 h).append var.plain_emitStore
  | .booleanAssignment var value, _, _, d, _, h => by
    rw [Command.calls, List.map_eq_nil_iff] at h
    exact (value.plain d.address 0 h).append (plain_cons rfl var.plain_emitStore)
  | .ifThen condition thenCase, enclosing, _, d, _, h => by
    simp only [Command.calls, List.append_eq_nil_iff, List.map_eq_nil_iff] at h
    exact (condition.plain d.address 0 h.1).append
      (plain_cons rfl (thenCase.plain enclosing false d 0 h.2))
  | .ifThenElse condition thenCase elseCase, enclosing, _, d, _, h => by
    simp only [Command.calls, List.append_eq_nil_iff, List.map_eq_nil_iff] at h
    refine (condition.plain d.address 0 h.1.1).append (plain_cons rfl ?_)
    exact ((thenCase.plain enclosing false d 0 h.1.2).append (plain_singleton rfl)).append
      (elseCase.plain enclosing false _ 0 h.2)
  | .function name type args body, enclosing, _, d, _, h =>
    plain_cons rfl ((Command.plainAll body (name :: enclosing) false d 0 h).append
      (plain_singleton rfl))
  | .functionCall call, _, _, _, _, h => by simp [Command.calls] at h
  | .printInt value, _, _, d, _, h => by
    rw [Command.calls, List.map_eq_nil_iff] at h
    exact (value.plain d.address 0 h).append (plain_singleton rfl)

/-- The code of commands that call no function. -/
theorem Command.plainAll : (cs : List Command) → ∀ (enclosing : List String) (root : Bool)
    (d : Driver) (ofs : Nat), Command.callsAll enclosing cs = [] →
    Plain (Command.emitAll root d ofs cs).items
  | [], _, _, _, _, _ => plain_nil
  | c :: cs, enclosing, root, d, ofs, h => by
    rw [Command.callsAll, List.append_eq_nil_iff] at h
    exact (c.plain enclosing root d ofs h.1).append (Command.plainAll cs enclosing root _ _ h.2)

end

/-! ### Rounds behind the preamble -/

/-- What stands at an offset behind the header is in the code behind it. -/
theorem mem_of_behind {header main pre rest : List Item} {item : Item}
    (hitems : header ++ main = pre ++ item :: rest)
    (hbehind : (itemBytes header).length ≤ (itemBytes pre).length) (hbytes : item.bytes ≠ []) :
    item ∈ main := by
  rcases List.append_eq_append_iff.mp hitems with ⟨between, hpre, hmain⟩ | ⟨between, hheader, hmain⟩
  · rw [hmain]
    simp
  · cases between with
    | nil =>
      rw [List.nil_append] at hmain
      rw [← hmain]
      simp
    | cons first between =>
      cases hmain
      have hpos := List.length_pos_of_ne_nil hbytes
      rw [hheader] at hbehind
      simp only [itemBytes_append, itemBytes_cons, List.length_append] at hbehind
      omega

section

variable {W H : Type} {f : VariableFactory W H} {vm vm' : VM W H} {e : Emitted}
  {imports : Int → Prop} {header main : List Item}

/-- An instruction that does not depend on the block. -/
theorem VM.local_of_rest {op : OpCode} {tail : Bytes} (hrest : vm.rest = op.toByte :: tail)
    (hop : op ≠ .call ∧ op ≠ .createVar ∧ op ≠ .jump) : vm.Local := by
  intro b tail' hrest'
  obtain ⟨rfl, -⟩ := List.cons.inj (hrest'.symm.trans hrest)
  rw [OpCode.ofByte_toByte]
  simp only [ne_eq, Option.some.injEq]
  exact ⟨hop.1, hop.2.1, fun hjump => absurd hjump hop.2.2⟩

theorem VM.local_of_eof (hrest : vm.rest = []) : vm.Local := by
  intro b tail hrest'
  rw [hrest] at hrest'
  cases hrest'

/-- A jump over `code`. -/
theorem VM.local_of_jump {code tail : Bytes}
    (hrest : vm.rest = opArg .jump code.length ++ (code ++ tail))
    (hshort : vm.code.length < 2 ^ 16) : vm.Local := by
  intro b tail' hrest'
  have hlen : vm.ip + (opArg .jump code.length).length + code.length ≤ vm.code.length := by
    have hrest₂ : vm.rest = (opArg .jump code.length ++ code) ++ tail := by simpa using hrest
    have hle := ip_add_length_le hrest₂ (by simp [opArg])
    rw [List.length_append] at hle
    omega
  obtain ⟨rfl, rfl⟩ := List.cons.inj (hrest'.symm.trans (rest_opArg hrest))
  refine ⟨by decide, by decide, fun _ r vm' hnext => ?_⟩
  have hopArg : (opArg .jump code.length).length =
      1 + (appendVarint (.ofInt code.length)).length := by simp [opArg, Nat.add_comm]
  have hnext' : (vm.advance 1).nextVarint = some (.ofInt code.length,
      (vm.advance 1).advance (appendVarint (.ofInt code.length)).length) := by
    have htail := rest_advance_one hrest'
    have hlen : (vm.advance 1).rest.length - (code ++ tail).length =
        (appendVarint (.ofInt code.length)).length := by
      rw [htail, List.length_append]
      omega
    rw [nextVarint, congrArg parseVarint htail, parseVarint_appendVarint, Option.map_some]
    simp only [hlen]
    rfl
  cases hnext'.symm.trans hnext
  rw [toInt_ofInt_natCast (by omega)]
  simp only [advance_ip]
  omega

/-- A round that depends on no block, goes forward if it goes on, and neither calls nor returns. -/
structure GoesForward (f : VariableFactory W H) (vm : VM W H) : Prop where
  here : vm.Local
  forward : ∀ vm', VM.step f vm = .inl vm' → vm.ip ≤ vm'.ip ∧ vm'.callStack = vm.callStack

theorem VM.Does.forward {len a b : Nat} {step : Step W H} (h : VM.Does vm len a b step)
    (hstep : step = .inl vm') : vm.ip ≤ vm'.ip ∧ vm'.callStack = vm.callStack := by
  rw [hstep] at h
  have hquiet := h.1
  exact ⟨hquiet.ip ▸ Nat.le_add_right _ _, hquiet.callStack⟩

theorem VM.forward_of_next {next : VM W H} (hnext : VM.step f vm = .inl next)
    (hip : vm.ip ≤ next.ip) (hcalls : next.callStack = vm.callStack) (vm' : VM W H)
    (hstep : VM.step f vm = .inl vm') :
    vm.ip ≤ vm'.ip ∧ vm'.callStack = vm.callStack := by
  cases hnext.symm.trans hstep
  exact ⟨hip, hcalls⟩

theorem VM.forward_of_end {r : Verdict × VM W H} (hend : VM.step f vm = .inr r) (vm' : VM W H)
    (hstep : VM.step f vm = .inl vm') : vm.ip ≤ vm'.ip ∧ vm'.callStack = vm.callStack := by
  cases hend.symm.trans hstep

theorem OpCode.effect_local {op : OpCode} {a b : Nat} (h : op.effect = some (a, b)) :
    op ≠ .call ∧ op ≠ .createVar ∧ op ≠ .jump := by
  cases op <;> first | cases h; done | decide

theorem OpCode.effectArg_local {op : OpCode} {a b : Nat} (h : op.effectArg = some (a, b)) :
    op ≠ .call ∧ op ≠ .createVar ∧ op ≠ .jump := by
  cases op <;> first | cases h; done | decide

/-- A round of plain code. -/
theorem Ready.goesForward (h : Ready 0 e imports true vm) (hsingle : vm.callStack.length ≤ 1)
    (hitems : e.items = header ++ main) (hplain : Plain main) (hsites : sites e.items = [])
    (hbehind : (itemBytes header).length ≤ vm.ip) : GoesForward f vm := by
  obtain ⟨isMain, lim, k, ks, items, hw, hs, hks, -⟩ := h.here
  have hnosite : ∀ site, ¬ AtSite e vm.ip site := by
    rintro site ⟨pre, post, heq, -⟩
    rw [heq] at hsites
    simp at hsites
  obtain ⟨ks, items, hw, hs, hks', -, hno⟩ := hs.skipSites hw fun _ site hsite =>
    absurd hsite (hnosite site)
  have hks : ∃ stack, vm.operandStack = stack ++ (ks.map Int32.ofInt).reverse := by
    rcases hks' with rfl | rfl
    · exact hks
    · exact ⟨vm.operandStack, by simp⟩
  obtain ⟨post, hrest, hmain⟩ := hw.rest h.loaded h.block
  have hmem : ∀ item rest, items = item :: rest → item.bytes ≠ [] → item ∈ main := by
    rintro item rest rfl hbytes
    obtain ⟨pre, post, heq, hip, -⟩ := hw
    exact mem_of_behind (hitems.symm.trans heq) (hip ▸ hbehind) hbytes
  have hcode : vm.code = itemBytes e.items := by rw [VM.code, h.block, h.loaded.code]
  have hshort : vm.code.length < 2 ^ 16 := by
    rw [hcode]
    exact h.loaded.short
  cases hs with
  | done hm =>
    obtain rfl := hmain hm
    have hempty : vm.rest = [] := by simpa using hrest
    exact ⟨VM.local_of_eof hempty, VM.forward_of_end (VM.step_of_eof hempty)⟩
  | @insn op _ _ _ _ rest heffect hnext =>
    have hrest' : vm.rest = op.toByte :: (itemBytes rest ++ itemBytes post) := by
      simpa [Item.bytes] using hrest
    exact ⟨VM.local_of_rest hrest' (OpCode.effect_local heffect), fun _ hstep =>
      (VM.step_insn heffect hrest' h.accessible).forward hstep⟩
  | @insnArg op arg _ _ _ _ rest heffect hnext =>
    have hrest' : vm.rest = opArg op arg ++ (itemBytes rest ++ itemBytes post) := by
      simpa [Item.bytes] using hrest
    exact ⟨VM.local_of_rest (VM.rest_opArg hrest') (OpCode.effectArg_local heffect), fun _ hstep =>
      (VM.step_insnArg heffect hrest').forward hstep⟩
  | @constant value _ _ rest hnext =>
    have hrest' : vm.rest = opArg .pushConstant value ++ (itemBytes rest ++ itemBytes post) := by
      simpa [Item.bytes] using hrest
    exact ⟨VM.local_of_rest (VM.rest_opArg hrest') (by decide),
      VM.forward_of_next (VM.step_pushConstant hrest') (Nat.le_add_right _ _) rfl⟩
  | @check n _ _ rest hn hnext =>
    have hrest' : vm.rest = opArg .checkStackLength n ++ (itemBytes rest ++ itemBytes post) := by
      simpa [Item.bytes] using hrest
    refine ⟨VM.local_of_rest (VM.rest_opArg hrest') (by decide), ?_⟩
    rcases VM.step_checkStackLength_cases (f := f) hrest' with hstep | ⟨ip, size, hstep⟩
    · exact VM.forward_of_next hstep (Nat.le_add_right _ _) rfl
    · exact VM.forward_of_end hstep
  | @leave n _ _ _ rest harg hnext =>
    subst harg
    have hrest' : vm.rest = opArg .leave n ++ (itemBytes rest ++ itemBytes post) := by
      simpa [Item.bytes] using hrest
    refine ⟨VM.local_of_rest (VM.rest_opArg hrest') (by decide), ?_⟩
    rcases VM.step_leave_cases (f := f) hrest' with ⟨stack, hstep, -⟩ | ⟨r, hstep, -⟩
    · exact VM.forward_of_next hstep (Nat.le_add_right _ _) rfl
    · exact VM.forward_of_end hstep
  | @jump _ _ code rest hnext =>
    have hrest' : vm.rest = opArg .jump (itemBytes code).length ++
        (itemBytes code ++ (itemBytes rest ++ itemBytes post)) := by
      simpa [Item.bytes] using hrest
    have hstep := VM.step_jump_over (f := f) hrest' hshort (by rw [h.block]; exact h.loaded.present)
      (by rw [h.block]; exact h.loaded.small)
    exact ⟨VM.local_of_jump hrest' hshort, VM.forward_of_next hstep (Nat.le_add_right _ _) rfl⟩
  | @testJump op _ _ code rest hop hthen hnext =>
    have hrest' : vm.rest = opArg op (itemBytes code).length ++
        (itemBytes code ++ (itemBytes rest ++ itemBytes post)) := by
      simpa [Item.bytes] using hrest
    have hlocal : op ≠ .call ∧ op ≠ .createVar ∧ op ≠ .jump := by
      rcases hop with rfl | rfl <;> decide
    refine ⟨VM.local_of_rest (VM.rest_opArg hrest') hlocal, ?_⟩
    rcases VM.step_testJump (f := f) hop hrest' hshort with
      ⟨stack, v, len, -, -, hstep⟩ | ⟨r, hstep, -⟩
    · exact VM.forward_of_next hstep (Nat.le_add_right _ _) rfl
    · exact VM.forward_of_end hstep
  | @importVar guid _ ks rest himp hnext =>
    obtain ⟨stack, hstack⟩ := hks
    have hrest' : vm.rest = OpCode.importVar.toByte :: (itemBytes rest ++ itemBytes post) := by
      simpa [Item.bytes] using hrest
    have hstack' : vm.operandStack =
        (stack ++ (ks.map Int32.ofInt).reverse) ++ [.ofInt guid, 0] := by simp [hstack]
    refine ⟨VM.local_of_rest hrest' (by decide), ?_⟩
    rcases VM.step_importVar (f := f) hrest' hstack' with ⟨-, hstep⟩ | hdoes
    · exact VM.forward_of_end hstep
    · exact fun _ hstep => hdoes.forward hstep
  | call hcallee hnext =>
    exact absurd (hplain _ (hmem _ _ rfl (by simp [Item.bytes, opArg]))) (by simp [Item.isPlain])
  | @ret _ _ rest =>
    have hrest' : vm.rest = OpCode.ret.toByte :: (itemBytes rest ++ itemBytes post) := by
      simpa [Item.bytes] using hrest
    have hnot : ∀ s ss frames, (vm.advance 1).callStack ≠ s :: ss :: frames := by
      rintro s ss frames hcalls
      rw [show vm.callStack = s :: ss :: frames from hcalls] at hsingle
      simp at hsingle
    have hstep : VM.step f vm = (vm.advance 1).fail .retUnderflow := by
      rw [VM.step_of_rest hrest', VM.executeInsn_ret_of_not hnot]
    exact ⟨VM.local_of_rest hrest' (by decide), VM.forward_of_end hstep⟩
  | @terminate _ _ rest =>
    have hrest' : vm.rest = OpCode.terminate.toByte :: (itemBytes rest ++ itemBytes post) := by
      simpa [Item.bytes] using hrest
    exact ⟨VM.local_of_rest hrest' (by decide), VM.forward_of_end (VM.step_of_rest hrest')⟩
  | @loadString text _ _ rest hnext =>
    have hrest' : vm.rest = OpCode.loadString.toByte ::
        (appendString text ++ (itemBytes rest ++ itemBytes post)) := by
      simpa [Item.bytes] using hrest
    exact ⟨VM.local_of_rest hrest' (by decide),
      VM.forward_of_next (VM.step_loadString hrest' hshort) (Nat.le_add_right _ _) rfl⟩
  | createVar hnext =>
    exact absurd (hplain _ (hmem _ _ rfl (by simp [Item.bytes, opArg]))) (by simp [Item.isPlain])
  | site => exact absurd rfl (hno _ _)
  | excluded => exact absurd rfl (hno _ _)

/-! ### Runs -/

/-- Behind the preamble a run of plain code depends on no block. -/
theorem Ready.local_of_reaches (hprog : SoundProgram imports true e) (h : Ready 0 e imports true vm)
    (hsingle : vm.callStack.length ≤ 1) (hitems : e.items = header ++ main) (hplain : Plain main)
    (hsites : sites e.items = []) (hbehind : (itemBytes header).length ≤ vm.ip)
    (hreach : Run.Reaches (VM.step f) vm vm') : vm'.Local := by
  have hnosite : ∀ ofs site, ¬AtSite e ofs site := by
    rintro ofs site ⟨pre, post, heq, -⟩
    rw [heq] at hsites
    simp at hsites
  have hinv : Ready 0 e imports true vm' ∧ vm'.callStack.length ≤ 1 ∧
      (itemBytes header).length ≤ vm'.ip := by
    refine Run.Reaches.invariant (I := fun s => Ready 0 e imports true s ∧
      s.callStack.length ≤ 1 ∧ (itemBytes header).length ≤ s.ip) ?_ hreach ⟨h, hsingle, hbehind⟩
    rintro s t ⟨hready, hcalls, hip⟩ hstep
    obtain ⟨hle, hsame⟩ := (hready.goesForward hcalls hitems hplain hsites hip).forward t hstep
    refine ⟨?_, by rwa [hsame], hip.trans hle⟩
    have hnext := hready.step (f := f) hprog (fun _ => rfl) fun _ site hsite =>
      absurd hsite (hnosite _ site)
    rw [hstep] at hnext
    exact hnext.2 (.inr rfl)
  exact (hinv.1.goesForward (f := f) hinv.2.1 hitems hplain hsites hinv.2.2).here

/-- With the preamble off, a run depends on no block from its start. -/
theorem local_of_skipPreamble {commands : List Command} (hprog : SoundProgram imports true e)
    (h : Ready 0 e imports true vm) (hstart : vm.ip = 0) (hoff : vm.isPreamble = false)
    (hsingle : vm.callStack.length ≤ 1) (hitems : e.items = preambleItems commands ++ main)
    (hplain : Plain main) (hsites : sites e.items = [])
    (hreach : Run.Reaches (VM.step f) vm vm') : vm'.Local := by
  set preamble := itemBytes (commands.flatMap Command.emitPreamble ++ [.insn .terminate])
    with hdef
  have hcode : vm.code = itemBytes (preambleItems commands ++ main) := by
    rw [VM.code, h.block, h.loaded.code, hitems]
  have hshort : vm.code.length < 2 ^ 16 := by
    rw [hcode, ← hitems]
    exact h.loaded.short
  have hrest : vm.rest = OpCode.ifPreamble.toByte ::
      (opArg .testJumpIfFalse preamble.length ++ (preamble ++ itemBytes main)) := by
    rw [VM.rest, hcode, hstart, preambleItems]
    simp [Item.bytes, hdef]
  have hpush : VM.step f vm = .inl ((vm.push 0).advance 1) := by
    rw [VM.step_of_rest hrest]
    simp only [VM.executeInsn, VM.advance_isPreamble, hoff]
    rfl
  have hrest' : ((vm.push 0).advance 1).rest = _ := VM.rest_advance_one hrest
  have htest := VM.step_testJumpIfFalse (f := f) hrest' hshort
    (show ((vm.push 0).advance 1).operandStack = vm.operandStack ++ [0] from rfl)
  rcases hreach.cases_head with rfl | ⟨s, hs, hreach⟩
  · exact VM.local_of_rest hrest (by decide)
  cases hpush.symm.trans hs
  rcases hreach.cases_head with rfl | ⟨s, hs, hreach⟩
  · exact VM.local_of_rest (VM.rest_opArg hrest') (by decide)
  have hready : Ready 0 e imports true s := by
    refine h.reaches (f := f) hprog (fun _ t _ site hsite => ?_) (.tail (.single hpush) hs)
    obtain ⟨pre, post, heq, -⟩ := hsite
    rw [heq] at hsites
    simp at hsites
  cases htest.symm.trans hs
  have hheader : (itemBytes (preambleItems commands)).length =
      1 + ((opArg .testJumpIfFalse preamble.length).length + preamble.length) := by
    simp only [preambleItems, itemBytes_cons, Item.bytes, List.length_append,
      List.length_singleton, hdef]
  refine hready.local_of_reaches hprog hsingle hitems hplain hsites ?_ hreach
  rw [hheader, if_pos rfl]
  change _ ≤ vm.ip + 1 + ((opArg .testJumpIfFalse preamble.length).length + preamble.length)
  rw [hstart, Nat.zero_add]

/-- The code of a program that calls nothing does in every block what it does alone. -/
theorem stepBlock_compiled {guid : Int} {unit : List CommandTree} {commands : List Command}
    {d : Driver} (hparse : (Driver.start guid).parseFile unit = .ok (commands, d))
    (hcalls : Command.callsAll [] commands = []) {block : UInt8}
    (hcode : vm.blocks.getD block.toNat [] = (d.serialize commands).1)
    (hshort : (d.serialize commands).1.length < 2 ^ 16) (fuel : Nat) :
    (stepBlock f fuel vm block).map VM.observe =
      (stepBlock f fuel (vm.alone (d.serialize commands).1) 0).map VM.observe := by
  have hprog : SoundProgram (fun _ => True) true (d.emit commands) :=
    Driver.sound_emit hparse (fun _ _ => trivial) true
  have hsites : sites (d.emit commands).items = [] := by
    have hresolves := Driver.resolves_emit hparse
    rw [hcalls] at hresolves
    exact List.forall₂_nil_left_iff.mp hresolves
  have hplain := Command.plainAll commands [] true d
    (itemBytes (preambleItems commands)).length hcalls
  rw [congrArg Prod.fst (d.serialize_eq_emit commands)] at hcode hshort ⊢
  have hpresent : block.toNat < vm.blocks.length := by
    by_contra hout
    rw [List.getD_eq_default _ _ (by omega)] at hcode
    have hlen := congrArg List.length hcode
    simp [Driver.emit, preambleItems, Item.bytes] at hlen
  refine VM.stepBlock_alone hpresent hcode hshort (fun t ht => ?_) fuel
  set code := itemBytes (d.emit commands).items
  have hload : ((vm.alone []).setPreamble false).setBlockCode 0 code =
      some ((vm.alone code).setPreamble false) := if_pos hshort
  have hready := Ready.start hprog hload (fun h => by cases h)
  have henter := VM.enterBlock_eq ((vm.alone code).setPreamble false).clear (b := 0)
    (Nat.zero_lt_one : 0 < [code].length)
  have hstart : (vm.alone code).startBlock 0 = _ := henter
  rw [henter] at hready
  rw [hstart] at ht
  exact local_of_skipPreamble hprog hready rfl rfl (Nat.le_refl 1) rfl hplain hsites ht

/-- A program that calls no function does the same in each block that holds its code, whatever the
other blocks hold. -/
theorem stepBlock_in_any_block {guid : Int} {unit : List CommandTree} {commands : List Command}
    {d : Driver} (hparse : (Driver.start guid).parseFile unit = .ok (commands, d))
    (hcalls : Command.callsAll [] commands = [])
    (hshort : (d.serialize commands).1.length < 2 ^ 16) (f : VariableFactory W H) (vm : VM W H)
    {blocks blocks' : List Bytes} {block block' : UInt8}
    (hcode : blocks.getD block.toNat [] = (d.serialize commands).1)
    (hcode' : blocks'.getD block'.toNat [] = (d.serialize commands).1) (fuel : Nat) :
    (stepBlock f fuel { vm with blocks } block).map VM.observe =
      (stepBlock f fuel { vm with blocks := blocks' } block').map VM.observe := by
  have hhere : (stepBlock f fuel { vm with blocks } block).map VM.observe = _ :=
    stepBlock_compiled hparse hcalls hcode hshort fuel
  have hthere : (stepBlock f fuel { vm with blocks := blocks' } block').map VM.observe = _ :=
    stepBlock_compiled hparse hcalls hcode' hshort fuel
  exact hhere.trans hthere.symm

end

/-- `int a = 1; if (a < 2) { print("low"); } else { print("high"); }` -/
def branchPrinter : List CommandTree :=
  [.variableDecl .localVar .int ⟨"a", [], .exp (.number 1)⟩ [] true,
    .ifThenElse (.intComp .lt (.intVar "a") (.number 2)) [.print (.text (textBytes "low")) []]
      (.braced [.print (.text (textBytes "high")) []])]

/-- It prints the same in the third block, behind two blocks that end at once, as it does alone. -/
theorem branchPrinter_in_third_block :
    ∃ commands d, (Driver.start 0).parseFile branchPrinter = .ok (commands, d) ∧
      (stepBlock .zero 12
        { VM.fresh () with blocks := [[1], [1], (d.serialize commands).1] } 2).map VM.observe =
      (stepBlock .zero 12 { VM.fresh () with blocks := [(d.serialize commands).1] } 0).map
        VM.observe := by
  have htest : accepted branchPrinter (fun commands d => (Command.callsAll [] commands).isEmpty &&
      decide ((d.serialize commands).1.length < 2 ^ 16)) = true := by decide
  obtain ⟨commands, d, hparse, htest⟩ := accepted_eq_true htest
  obtain ⟨hcalls, hshort⟩ := Bool.and_eq_true_iff.mp htest
  exact ⟨commands, d, hparse, stepBlock_in_any_block hparse (List.isEmpty_iff.mp hcalls)
    (of_decide_eq_true hshort) .zero (.fresh ()) rfl rfl 12⟩

end OpenmrnCue.Logic
