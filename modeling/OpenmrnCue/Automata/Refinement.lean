import OpenmrnCue.Automata.Decoding

/-! The runner on the bytes of an automaton does what `interpret` does with its operations, except
that an import names its definition by two bytes. -/

namespace OpenmrnCue.Automata

variable {W : Type} {bits : BitObjects W} {code : List Insn} {ip : Nat} {m : Machine W}

/-- The definition that the two bytes of an import name. -/
def shortOffset (offset : Nat) : Nat := offset % 2 ^ 16

/-! ## Conditions -/

theorem evalCondition_ifReg (var : LocalVariable) (value : Bool) :
    evalCondition bits m (ifRegByte var value) =
      (do .ok ((← m.read bits var.id) == value, m)) := by
  obtain ⟨-, hstate, hreg, hid, hvalue⟩ := ifReg_fields value var.id var.isLt
  rw [evalCondition, ifRegByte, if_neg hstate, if_pos hreg, hid, hvalue]

variable (bits) in
/-- One turn of the loop over the conditions, on the bytes of a condition. -/
theorem evalConditions_succ {c : Condition LocalVariable} (hadmitted : c.Admitted)
    {endif fuel : Nat}
    (hreads : Reads code ip c.bytes) (hend : ip + c.bytes.length ≤ endif) :
    Runner.evalConditions bits code endif (fuel + 1) ⟨ip, m⟩ = (do
      if ← c.holds bits m then
        Runner.evalConditions bits code endif fuel ⟨ip + c.bytes.length, m⟩
      else .ok (false, ⟨ip + c.bytes.length, m⟩)) := by
  have hone : ∀ b, c.bytes = [b] → b &&& Insn.ifMiscaMask ≠ Insn.ifMiscaBase →
      evalCondition bits m b = (do .ok (← c.holds bits m, m)) →
      Runner.evalConditions bits code endif (fuel + 1) ⟨ip, m⟩ = (do
        if ← c.holds bits m then
          Runner.evalConditions bits code endif fuel ⟨ip + c.bytes.length, m⟩
        else .ok (false, ⟨ip + c.bytes.length, m⟩)) := by
    intro b hbytes hmisca heval
    rw [hbytes] at hreads hend ⊢
    have hlen : ip + 1 ≤ endif := hend
    rw [Runner.evalConditions, if_neg (show ¬ endif ≤ ip by omega), loadInsn_of_reads hreads]
    simp only [Except.ok_bind, if_neg hmisca, heval]
    cases c.holds bits m <;> rfl
  cases c with
  | ifState state =>
    obtain ⟨hmisca, hstate, hvalue⟩ := ifState_fields state hadmitted
    refine hone _ rfl hmisca ?_
    rw [evalCondition, if_pos hstate, hvalue]
    rfl
  | ifReg0 var =>
    refine hone _ rfl (ifReg_fields false var.id var.isLt).1 ?_
    rw [evalCondition_ifReg]
    cases h : m.read bits var.id <;> simp [Condition.holds, h]
  | ifReg1 var =>
    refine hone _ rfl (ifReg_fields true var.id var.isLt).1 ?_
    rw [evalCondition_ifReg]
    cases h : m.read bits var.id <;> simp [Condition.holds, h]
  | ifTimerDone =>
    refine hone _ rfl (ifReg_fields false timerBit.id timerBit.isLt).1 ?_
    rw [evalCondition_ifReg]
    cases h : m.read bits timerBit.id <;> simp [Condition.holds, h]
  | ifTimerNotDone =>
    refine hone _ rfl (ifReg_fields true timerBit.id timerBit.isLt).1 ?_
    rw [evalCondition_ifReg]
    cases h : m.read bits timerBit.id <;> simp [Condition.holds, h]
  | ifAspect value =>
    have hlen : ip + 2 ≤ endif := hend
    rw [Runner.evalConditions, if_neg (show ¬ endif ≤ ip by omega), loadInsn_of_reads hreads]
    simp only [Except.ok_bind]
    rw [if_pos (by decide), if_neg (show ¬ endif ≤ ip + 1 by omega),
      loadInsn_of_reads hreads.tail]
    simp only [Except.ok_bind, evalCondition2, if_pos]
    rfl

variable (bits) in
/-- The loop over the conditions, on their bytes. -/
theorem evalConditions_eq {cs : List (Condition LocalVariable)} (hadmitted : ∀ c ∈ cs, c.Admitted)
    {fuel : Nat} (hreads : Reads code ip (cs.flatMap Condition.bytes))
    (hfuel : (cs.flatMap Condition.bytes).length ≤ fuel) :
    ∃ ip', Runner.evalConditions bits code (ip + (cs.flatMap Condition.bytes).length) fuel ⟨ip, m⟩ =
      (holdAll bits m cs).map fun keep =>
        (keep, ⟨if keep then ip + (cs.flatMap Condition.bytes).length else ip', m⟩) := by
  induction cs generalizing ip fuel with
  | nil =>
    refine ⟨ip, ?_⟩
    cases fuel with
    | zero => rfl
    | succ fuel => simp [Runner.evalConditions, holdAll, Except.map]
  | cons c cs ih =>
    rw [List.flatMap_cons] at hreads hfuel ⊢
    have hlength : 0 < c.bytes.length := by cases c <;> simp [Condition.bytes]
    cases fuel with
    | zero =>
      rw [List.length_append] at hfuel
      omega
    | succ fuel =>
      rw [List.length_append] at hfuel
      have hfuel' : (cs.flatMap Condition.bytes).length ≤ fuel := by omega
      obtain ⟨ip', hrest⟩ := ih (fun other hother => hadmitted other (by simp [hother]))
        hreads.append_right hfuel'
      have hend : ip + c.bytes.length ≤ ip + (c.bytes ++ cs.flatMap Condition.bytes).length := by
        simp
      rw [evalConditions_succ bits (hadmitted c (by simp)) hreads.append_left hend,
        List.length_append, ← Nat.add_assoc, hrest]
      cases hholds : c.holds bits m with
      | error stop => exact ⟨ip, by simp [holdAll, hholds, Except.map]⟩
      | ok keep =>
        cases keep with
        | false => exact ⟨ip + c.bytes.length, by simp [holdAll, hholds, Except.map]⟩
        | true => exact ⟨ip', by simp [holdAll, hholds, Except.map]⟩

/-! ## Actions -/

/-- An action of one byte. -/
theorem execAction_one {b : Insn} {endcond : Nat} (hreads : Reads code ip [b])
    (hcodes : b ∉ [Insn.actImportVar, Insn.actSetEventid, Insn.actDefVar, Insn.actSetVarValue])
    (hmisca : b &&& Insn.actMiscaMask ≠ Insn.actMiscaBase) :
    Runner.execAction bits code ⟨ip, m⟩ endcond =
      (evalAction bits m b).map fun m' => ⟨ip + 1, m'⟩ := by
  simp only [List.mem_cons, List.not_mem_nil, or_false, not_or] at hcodes
  obtain ⟨himport, heventid, hdef, hvalue⟩ := hcodes
  rw [Runner.execAction, loadInsn_of_reads hreads]
  simp only [Except.ok_bind]
  rw [if_neg himport, if_neg heventid, if_neg hdef, if_neg hvalue, if_neg hmisca]
  cases evalAction bits m b <;> rfl

/-- An action of two bytes that `eval_action2` carries out. -/
theorem execAction_two {b arg : Insn} {endcond : Nat} (hreads : Reads code ip [b, arg])
    (hend : ip + 2 ≤ endcond)
    (hcodes : b ∉ [Insn.actImportVar, Insn.actSetEventid, Insn.actDefVar, Insn.actSetVarValue])
    (hmisca : b &&& Insn.actMiscaMask = Insn.actMiscaBase) :
    Runner.execAction bits code ⟨ip, m⟩ endcond =
      (evalAction2 bits m b arg).map fun m' => ⟨ip + 2, m'⟩ := by
  simp only [List.mem_cons, List.not_mem_nil, or_false, not_or] at hcodes
  obtain ⟨himport, heventid, hdef, hvalue⟩ := hcodes
  rw [Runner.execAction, loadInsn_of_reads hreads]
  simp only [Except.ok_bind]
  rw [if_neg himport, if_neg heventid, if_neg hdef, if_neg hvalue, if_pos hmisca,
    if_neg (show ¬ endcond ≤ ip + 1 by omega), loadInsn_of_reads hreads.tail]
  simp only [Except.ok_bind]
  cases evalAction2 bits m b arg <;> rfl

theorem execAction_actReg {var : LocalVariable} {value : Bool} {endcond : Nat}
    (hreads : Reads code ip [actRegByte var value]) :
    Runner.execAction bits code ⟨ip, m⟩ endcond =
      (m.write bits var.id value).map fun m' => ⟨ip + 1, m'⟩ := by
  obtain ⟨hcodes, hmisca, hstate, htimer, hreg, hid, hvalue⟩ := actReg_fields value var.id var.isLt
  rw [execAction_one hreads hcodes hmisca, evalAction, actRegByte, if_neg hstate, if_neg htimer,
    if_pos hreg, hid, hvalue]

theorem execAction_import {var : GlobalVariableId} {localVar : LocalVariable} {endcond : Nat}
    (hadmitted : var.arg < 8 <<< 8)
    (hreads : Reads code ip (Action.actImportVariable var localVar).bytes)
    (hend : ip + 5 ≤ endcond) :
    Runner.execAction bits code ⟨ip, m⟩ endcond =
      (m.importBit localVar.id (shortOffset var.id) var.arg).map fun m' => ⟨ip + 5, m'⟩ := by
  obtain ⟨hlocal, harg⟩ := importArgument_fields hadmitted localVar.isLt
  rw [Runner.execAction, loadInsn_of_reads hreads]
  simp only [Except.ok_bind]
  rw [if_pos trivial, Runner.importVariable, loadInsn_of_reads hreads.tail]
  simp only [Except.ok_bind]
  rw [loadInsn_of_reads hreads.tail.tail]
  simp only [Except.ok_bind]
  rw [loadInsn_of_reads hreads.tail.tail.tail]
  simp only [Except.ok_bind]
  rw [loadInsn_of_reads hreads.tail.tail.tail.tail]
  simp only [Except.ok_bind]
  rw [hlocal, harg, globalOfs_fields, ← shortOffset]
  cases m.importBit localVar.id (shortOffset var.id) var.arg with
  | error stop => rfl
  | ok m' =>
    simp only [Except.ok_bind]
    rw [if_neg (show ¬ endcond < ip + 1 + 1 + 1 + 1 + 1 by omega)]
    rfl

variable (bits) in
/-- An event id is set from all of its bytes. -/
theorem execAction_eventId {type : Insn} {dest : Fin 2} (hdest : Runner.eventIdIndex type 6 = dest)
    (hsrc : Runner.eventIdIndex type 4 = dest) (hcount : (type &&& 7).toNat = 7) {id : UInt64}
    {endcond : Nat} (hreads : Reads code ip (Insn.actSetEventid :: type :: eventIdBytes id 7))
    (hend : ip + 10 ≤ endcond) :
    Runner.execAction bits code ⟨ip, m⟩ endcond =
      .ok ⟨ip + 10, { m with eventIds := Function.update m.eventIds dest id }⟩ := by
  rw [Runner.execAction, loadInsn_of_reads hreads]
  simp only [Except.ok_bind]
  rw [if_neg (by decide), if_pos trivial, Runner.insnLoadEventId, loadInsn_of_reads hreads.tail]
  simp only [Except.ok_bind, hdest, hsrc, Function.update_eq_self]
  rw [hcount, loadEventBytes_eq (by decide) hreads.tail.tail fun i hi => by
    rw [BitVec.getLsbD_of_ge _ _ (by omega), BitVec.getLsbD_of_ge _ _ (by omega)]]
  simp only [Except.ok_bind]
  rw [if_neg (show ¬ endcond < ip + 1 + 1 + (7 + 1) by omega)]

theorem execAction_setValue {var : LocalVariable} {offset : Nat} {value : UInt8} {endcond : Nat}
    (hadmitted : offset < 8) (hreads : Reads code ip (Action.actSetValue var offset value).bytes)
    (hend : ip + 3 ≤ endcond) :
    Runner.execAction bits code ⟨ip, m⟩ endcond =
      (m.setState bits var.id offset value).map fun m' => ⟨ip + 3, m'⟩ := by
  obtain ⟨hid, hoffset⟩ := valueArgument_fields offset hadmitted var.id var.isLt
  rw [Runner.execAction, loadInsn_of_reads hreads]
  simp only [Except.ok_bind]
  rw [if_neg (by decide), if_neg (by decide), if_neg (by decide), if_pos trivial,
    loadInsn_of_reads hreads.tail]
  simp only [Except.ok_bind]
  rw [loadInsn_of_reads hreads.tail.tail]
  simp only [Except.ok_bind]
  rw [if_neg (show ¬ endcond < ip + 1 + 1 + 1 by omega), valueArgument, hid, hoffset]
  cases m.setState bits var.id offset value <;> rfl

/-- One turn of the loop over the actions, on the bytes of an action. -/
theorem execAction_eq {a : Action LocalVariable GlobalVariableId} (hadmitted : a.Admitted)
    {endcond : Nat} (hreads : Reads code ip a.bytes) (hend : ip + a.bytes.length ≤ endcond) :
    Runner.execAction bits code ⟨ip, m⟩ endcond =
      (a.perform bits shortOffset m).map fun m' => ⟨ip + a.bytes.length, m'⟩ := by
  cases a with
  | actReg0 var => exact execAction_actReg hreads
  | actReg1 var => exact execAction_actReg hreads
  | actState state =>
    obtain ⟨hcodes, hmisca, hstate, hvalue⟩ := actState_fields state hadmitted
    rw [execAction_one hreads hcodes hmisca, evalAction, if_pos hstate, hvalue]
    rfl
  | actTimer seconds =>
    obtain ⟨hcodes, hmisca, hstate, htimer, hvalue, hseconds⟩ := actTimer_fields seconds hadmitted
    rw [execAction_one hreads hcodes hmisca, evalAction, if_neg hstate, if_pos htimer, hvalue,
      Machine.setTimer, if_neg hseconds]
    rfl
  | actImportVariable var localVar => exact execAction_import hadmitted hreads hend
  | actSetId id =>
    exact execAction_eventId bits (by decide) (by decide) (by decide) hreads hend
  | actSetAspect value =>
    rw [execAction_two hreads hend (by decide) (by decide), evalAction2, if_neg (by decide),
      if_neg (by decide), if_pos rfl]
    rfl
  | actUpAspect =>
    rw [execAction_one hreads (by decide) (by decide), evalAction, if_neg (by decide),
      if_neg (by decide), if_neg (by decide), if_pos rfl]
    rfl
  | actSetValue var offset value => exact execAction_setValue hadmitted hreads hend
  | actSetValueFromAspect var offset =>
    obtain ⟨hid, hoffset⟩ := valueArgument_fields offset hadmitted var.id var.isLt
    rw [execAction_two hreads hend (by decide) (by decide), evalAction2, if_neg (by decide),
      if_neg (by decide), if_neg (by decide), if_pos rfl, valueArgument, hid, hoffset]
    rfl
  | actGetValueToAspect var offset =>
    obtain ⟨hid, hoffset⟩ := valueArgument_fields offset hadmitted var.id var.isLt
    rw [execAction_two hreads hend (by decide) (by decide), evalAction2, if_neg (by decide),
      if_neg (by decide), if_neg (by decide), if_neg (by decide), if_pos rfl, valueArgument, hid,
      hoffset]
    rfl

variable (bits) in
/-- The loop over the actions, on their bytes. -/
theorem execActions_eq {acts : List (Action LocalVariable GlobalVariableId)}
    (hadmitted : ∀ a ∈ acts, a.Admitted) {fuel : Nat}
    (hreads : Reads code ip (acts.flatMap Action.bytes))
    (hfuel : (acts.flatMap Action.bytes).length ≤ fuel) :
    Runner.execActions bits code (ip + (acts.flatMap Action.bytes).length) fuel ⟨ip, m⟩ =
      (performAll bits shortOffset m acts).map fun m' =>
        ⟨ip + (acts.flatMap Action.bytes).length, m'⟩ := by
  induction acts generalizing ip m fuel with
  | nil => cases fuel <;> simp [Runner.execActions, performAll, Except.map]
  | cons a acts ih =>
    rw [List.flatMap_cons] at hreads hfuel ⊢
    rw [List.length_append] at hfuel ⊢
    have hlength : 0 < a.bytes.length := by cases a <;> simp [Action.bytes]
    cases fuel with
    | zero => omega
    | succ fuel =>
      rw [Runner.execActions, if_neg (by simp only; omega),
        execAction_eq (hadmitted a (by simp)) hreads.append_left (by omega), performAll]
      cases a.perform bits shortOffset m with
      | error stop => rfl
      | ok m' =>
        simp only [Except.ok_bind]
        have hfuel' : (acts.flatMap Action.bytes).length ≤ fuel := by omega
        have hrest := ih (m := m') (fun other hother => hadmitted other (by simp [hother]))
          hreads.append_right hfuel'
        rw [← Nat.add_assoc]
        exact hrest

/-! ## Operations -/

/-- An operation, after its header. -/
theorem runOperation_eq {op : Op LocalVariable GlobalVariableId} (hadmitted : op.Admitted)
    {header : Insn} (hnumif : (header &&& 0x0f).toNat = op.ifBytes.length)
    (hnumact : (header >>> 4).toNat = op.actBytes.length)
    (hreads : Reads code ip (op.ifBytes ++ op.actBytes)) :
    Runner.runOperation bits code ⟨ip, m⟩ header =
      (op.interpret bits shortOffset m).map fun m' =>
        ⟨ip + op.ifBytes.length + op.actBytes.length, m'⟩ := by
  obtain ⟨ip', hconditions⟩ := evalConditions_eq bits (m := m) hadmitted.ifs
    hreads.append_left (Nat.le_refl _)
  have hactions := execActions_eq bits (m := m) hadmitted.acts hreads.append_right
    (Nat.le_refl _)
  rw [Runner.runOperation, hnumif, hnumact, Op.interpret]
  rw [← Op.ifBytes] at hconditions
  simp only [hconditions]
  cases holdAll bits m op.ifs with
  | error stop => rfl
  | ok keep =>
    cases keep with
    | false => rfl
    | true => exact hactions

variable (bits) in
/-- The step of `Run` on the bytes of an operation. -/
theorem step_eq {op : Op LocalVariable GlobalVariableId} (hadmitted : op.Admitted)
    (hreads : Reads code ip op.bytes) :
    Runner.step bits code ⟨ip, m⟩ =
      match op.interpret bits shortOffset m with
      | .error stop => .inr (.error stop)
      | .ok m' => .inl ⟨ip + op.bytes.length, m'⟩ := by
  obtain ⟨hnumif, hnumact, hzero⟩ := header_fields op.actBytes.length hadmitted.acts_size
    op.ifBytes.length hadmitted.ifs_size
  have hnonzero : ¬ (op.ifBytes.length = 0 ∧ op.actBytes.length = 0) := by
    rintro ⟨hifs, hacts⟩
    rcases hadmitted.nonempty with hsome | hsome
    · obtain ⟨c, cs, hcs⟩ := List.exists_cons_of_ne_nil hsome
      rw [Op.ifBytes, hcs, List.flatMap_cons, List.length_append] at hifs
      cases c <;> simp [Condition.bytes] at hifs
    · obtain ⟨a, acts, hcons⟩ := List.exists_cons_of_ne_nil hsome
      rw [Op.actBytes, hcons, List.flatMap_cons, List.length_append] at hacts
      cases a <;> simp [Action.bytes] at hacts
  rw [Runner.step, loadInsn_of_reads hreads]
  simp only
  rw [if_neg (fun h => hnonzero (hzero.mp h)),
    runOperation_eq hadmitted hnumif hnumact hreads.tail]
  cases op.interpret bits shortOffset m with
  | error stop => rfl
  | ok m' =>
    have hlength : op.bytes.length = op.ifBytes.length + op.actBytes.length + 1 := by
      simp [Op.bytes, createOperation]
    simp only [Except.map, hlength]
    congr 2
    omega

theorem interpret_cons {resolve : Nat → Nat} {op : Op LocalVariable GlobalVariableId}
    {body : List (Op LocalVariable GlobalVariableId)} :
    interpret bits resolve m (op :: body) =
      op.interpret bits resolve m >>= fun m' => interpret bits resolve m' body := by
  rw [interpret, List.foldlM_cons]
  rfl

/-- `Run` on the bytes of operations that can be carried out gets to their end. -/
theorem reaches_ops {ops : List (Op LocalVariable GlobalVariableId)}
    (hadmitted : ∀ op ∈ ops, op.Admitted) (hreads : Reads code ip (ops.flatMap Op.bytes))
    {m' : Machine W} (hinterpret : interpret bits shortOffset m ops = .ok m') :
    Run.Reaches (Runner.step bits code) ⟨ip, m⟩ ⟨ip + (ops.flatMap Op.bytes).length, m'⟩ := by
  induction ops generalizing ip m with
  | nil =>
    cases hinterpret
    exact Run.Reaches.refl _
  | cons op ops ih =>
    rw [List.flatMap_cons] at hreads ⊢
    rw [interpret_cons] at hinterpret
    obtain ⟨between, hop, hrest⟩ := Except.bind_eq_ok.mp hinterpret
    have hstep := step_eq bits (m := m) (hadmitted op (by simp)) hreads.append_left
    rw [hop] at hstep
    refine Run.Reaches.head hstep ?_
    rw [List.length_append, ← Nat.add_assoc]
    exact ih (fun other hother => hadmitted other (by simp [hother])) hreads.append_right hrest

variable (bits) in
/-- `Run` on the bytes of a body carries out its operations. -/
theorem runs_body {body : List (Op LocalVariable GlobalVariableId)}
    (hadmitted : ∀ op ∈ body, op.Admitted) (hreads : Reads code ip (render body)) :
    Runner.Runs bits code ⟨ip, m⟩
      ((interpret bits shortOffset m body).map fun m' => ⟨ip + (render body).length, m'⟩) := by
  induction body generalizing ip m with
  | nil =>
    refine Run.Halts.of_step ?_
    rw [Runner.step, loadInsn_of_reads hreads]
    rfl
  | cons op body ih =>
    have happend : render (op :: body) = op.bytes ++ render body := by simp [render]
    rw [happend] at hreads ⊢
    have hstep := step_eq bits (m := m) (hadmitted op (by simp)) hreads.append_left
    rw [interpret_cons]
    cases hop : op.interpret bits shortOffset m with
    | error stop =>
      rw [hop] at hstep
      exact Run.Halts.of_step hstep
    | ok m' =>
      rw [hop] at hstep
      refine Run.Halts.head hstep ?_
      have hrest := ih (m := m') (fun other hother => hadmitted other (by simp [hother]))
        hreads.append_right
      rw [List.length_append, ← Nat.add_assoc]
      exact hrest

end OpenmrnCue.Automata
