import OpenmrnCue.Automata.Allocation
import OpenmrnCue.Automata.Table

/-! Variables keep their identity: a local variable that `ImportVariable` gave for a global variable
stands, while the runner is at the code where it is used, for the object of the definition of that
variable. -/

namespace OpenmrnCue.Automata

variable {W : Type} {bits : BitObjects W} {code : List Insn} {m m' : Machine W}

/-! ## What actions leave alone -/

/-- The operation imports into a local variable. -/
def ImportsInto (acts : List (Action LocalVariable GlobalVariableId)) (id : Nat) : Prop :=
  ∃ var localVar, .actImportVariable var localVar ∈ acts ∧ localVar.id = id

/-- The declared objects stay, and so do the imports into these local variables. -/
structure Machine.Frame (m m' : Machine W) (ids : Nat → Prop) : Prop where
  declared : m'.declared = m.declared
  imported : ∀ id, ids id → m'.imported id = m.imported id

theorem Machine.Frame.refl (m : Machine W) (ids : Nat → Prop) : m.Frame m ids :=
  ⟨rfl, fun _ _ => rfl⟩

theorem Machine.Frame.trans {m1 m2 m3 : Machine W} {ids : Nat → Prop} (h1 : m1.Frame m2 ids)
    (h2 : m2.Frame m3 ids) : m1.Frame m3 ids :=
  ⟨h2.declared.trans h1.declared, fun id hid => (h2.imported id hid).trans (h1.imported id hid)⟩

theorem Machine.write_frame {local_ : Nat} {value : Bool} {ids : Nat → Prop}
    (h : m.write bits local_ value = .ok m') : m.Frame m' ids := by
  obtain ⟨⟨ref, arg⟩, -, h⟩ := Except.bind_eq_ok.mp h
  cases ref with
  | timer => cases h
  | declared offset =>
    obtain ⟨object, -, h⟩ := Except.bind_eq_ok.mp h
    obtain ⟨-, h⟩ := Except.require_eq_ok.mp h
    cases h
    exact ⟨rfl, fun _ _ => rfl⟩

theorem Machine.setState_frame {local_ arg : Nat} {value : UInt8} {ids : Nat → Prop}
    (h : m.setState bits local_ arg value = .ok m') : m.Frame m' ids := by
  obtain ⟨⟨ref, _⟩, -, h⟩ := Except.bind_eq_ok.mp h
  cases ref with
  | timer => cases h
  | declared offset =>
    obtain ⟨object, -, h⟩ := Except.bind_eq_ok.mp h
    obtain ⟨-, h⟩ := Except.guard_eq_ok.mp h
    cases h
    exact ⟨rfl, fun _ _ => rfl⟩

theorem Machine.importBit_eq_ok {local_ offset arg : Nat}
    (h : m.importBit local_ offset arg = .ok m') :
    m'.declared = m.declared ∧
      m'.imported = Function.update m.imported local_ (some (.declared offset, arg)) := by
  unfold Machine.importBit at h
  split at h
  · cases h
  · cases h
    exact ⟨rfl, rfl⟩

theorem Action.perform_frame {a : Action LocalVariable GlobalVariableId} {resolve : Nat → Nat}
    (h : a.perform bits resolve m = .ok m') : m.Frame m' fun id => ¬ ImportsInto [a] id := by
  cases a with
  | actImportVariable var localVar =>
    obtain ⟨hdeclared, himported⟩ := Machine.importBit_eq_ok h
    refine ⟨hdeclared, fun id hid => ?_⟩
    rw [himported, Function.update_of_ne]
    exact fun heq => hid ⟨var, localVar, by simp, heq.symm⟩
  | actReg0 var => exact Machine.write_frame h
  | actReg1 var => exact Machine.write_frame h
  | actSetValue var offset value => exact Machine.setState_frame h
  | actSetValueFromAspect var offset => exact Machine.setState_frame h
  | actGetValueToAspect var offset =>
    obtain ⟨value, -, h⟩ := Except.bind_eq_ok.mp h
    cases h
    exact ⟨rfl, fun _ _ => rfl⟩
  | actState state => cases h; exact ⟨rfl, fun _ _ => rfl⟩
  | actTimer seconds => cases h; exact ⟨rfl, fun _ _ => rfl⟩
  | actSetId id => cases h; exact ⟨rfl, fun _ _ => rfl⟩
  | actSetAspect value => cases h; exact ⟨rfl, fun _ _ => rfl⟩
  | actUpAspect => cases h; exact ⟨rfl, fun _ _ => rfl⟩

theorem performAll_frame {acts : List (Action LocalVariable GlobalVariableId)}
    {resolve : Nat → Nat} (h : performAll bits resolve m acts = .ok m') :
    m.Frame m' fun id => ¬ ImportsInto acts id := by
  induction acts generalizing m with
  | nil =>
    cases h
    exact .refl _ _
  | cons a acts ih =>
    obtain ⟨between, hfirst, hrest⟩ := Except.bind_eq_ok.mp h
    have hone := a.perform_frame hfirst
    have hmany := ih hrest
    refine ⟨hmany.declared.trans hone.declared, fun id hid => ?_⟩
    rw [hmany.imported id fun ⟨var, localVar, hmem, heq⟩ =>
        hid ⟨var, localVar, List.mem_cons_of_mem _ hmem, heq⟩,
      hone.imported id fun ⟨var, localVar, hmem, heq⟩ =>
        hid ⟨var, localVar, by rw [List.mem_singleton.mp hmem]; simp, heq⟩]

theorem Op.interpret_frame {op : Op LocalVariable GlobalVariableId} {resolve : Nat → Nat}
    (h : op.interpret bits resolve m = .ok m') :
    m.Frame m' fun id => ¬ ImportsInto op.acts id := by
  obtain ⟨keep, -, h⟩ := Except.bind_eq_ok.mp h
  cases keep with
  | false =>
    cases h
    exact .refl _ _
  | true => exact performAll_frame h

theorem interpret_declared {ops : List (Op LocalVariable GlobalVariableId)} {resolve : Nat → Nat}
    (h : interpret bits resolve m ops = .ok m') : m'.declared = m.declared := by
  induction ops generalizing m with
  | nil =>
    cases h
    rfl
  | cons op ops ih =>
    rw [interpret_cons] at h
    obtain ⟨between, hfirst, hrest⟩ := Except.bind_eq_ok.mp h
    exact (ih hrest).trans (Op.interpret_frame hfirst).declared

/-! ## Where the runner is -/

/-- Every state of a run is at the start of an operation, after the operations before it. -/
theorem reaches_cases {start : Nat} {ops : List (Op LocalVariable GlobalVariableId)}
    (hasserted : ∀ op ∈ ops, op.Asserted) (hreads : Reads code start (render ops)) {r : Runner W}
    (hreached : Run.Reaches (Runner.step bits code) ⟨start, m⟩ r) :
    ∃ before after, ops = before ++ after ∧ r.ip = start + (before.flatMap Op.bytes).length ∧
      interpret bits shortOffset m before = .ok r.machine := by
  induction hreached with
  | refl => exact ⟨[], ops, rfl, rfl, rfl⟩
  | @tail r next _ hstep ih =>
    obtain ⟨before, after, hops, hip, hinterpret⟩ := ih
    have hsplit : render ops = before.flatMap Op.bytes ++ render after := by
      rw [hops]
      simp [render]
    rw [hsplit] at hreads
    have hhere : Reads code r.ip (render after) := by
      rw [hip]
      exact hreads.append_right
    have hstate : r = ⟨r.ip, r.machine⟩ := rfl
    rw [hstate] at hstep
    cases after with
    | nil =>
      rw [Runner.step, loadInsn_of_reads hhere] at hstep
      cases hstep
    | cons op after =>
      have hop : op.Asserted := hasserted op (by simp [hops])
      have happend : render (op :: after) = op.bytes ++ render after := by simp [render]
      rw [happend] at hhere
      have hnonempty : op.ifs ≠ [] ∨ op.acts ≠ [] := by
        by_contra hempty
        rw [not_or, not_not, not_not] at hempty
        have hbytes : op.bytes = [0] := by
          simp [Op.bytes, Op.ifBytes, Op.actBytes, hempty.1, hempty.2, createOperation]
        rw [hbytes] at hhere
        rw [Runner.step, loadInsn_of_reads hhere] at hstep
        cases hstep
      rw [step_eq bits ⟨hop, hnonempty⟩ hhere.append_left] at hstep
      cases hresult : op.interpret bits shortOffset r.machine with
      | error stop =>
        rw [hresult] at hstep
        cases hstep
      | ok m' =>
        rw [hresult] at hstep
        cases hstep
        refine ⟨before ++ [op], after, by simp [hops], ?_, ?_⟩
        · rw [List.flatMap_append, List.length_append, hip]
          simp [Nat.add_assoc]
        · rw [interpret, List.foldlM_append]
          refine Except.bind_eq_ok.mpr ⟨_, hinterpret, ?_⟩
          exact Except.bind_eq_ok.mpr ⟨m', hresult, rfl⟩

theorem Op.bytes_pos (op : Op LocalVariable GlobalVariableId) : 0 < op.bytes.length := by
  simp [Op.bytes, createOperation]

/-- Two beginnings of the same operations with the same number of bytes are the same. -/
theorem eq_of_length_bytes {before after before' after' : List (Op LocalVariable GlobalVariableId)}
    (heq : before ++ after = before' ++ after')
    (hlength : (before.flatMap Op.bytes).length = (before'.flatMap Op.bytes).length) :
    before = before' := by
  induction before generalizing before' with
  | nil =>
    cases before' with
    | nil => rfl
    | cons op before' =>
      have := op.bytes_pos
      rw [List.flatMap_cons, List.length_append, List.flatMap_nil, List.length_nil] at hlength
      omega
  | cons op before ih =>
    cases before' with
    | nil =>
      have := op.bytes_pos
      rw [List.flatMap_cons, List.length_append, List.flatMap_nil, List.length_nil] at hlength
      omega
    | cons op' before' =>
      obtain ⟨rfl, htail⟩ := List.cons_eq_cons.mp heq
      rw [List.flatMap_cons, List.flatMap_cons, List.length_append, List.length_append] at hlength
      rw [ih htail (by omega)]

/-! ## What the statements of a body render -/

section Statements

variable {getId : GlobalVariable → Option GlobalVariableId} {s s' : BodyState}

/-- `ImportVariable` has given this local variable since `ClearUsedVariables`. -/
def BodyState.Imported (s : BodyState) (id : LocalVariable) : Prop :=
  ∃ var, (var, id) ∈ s.vars.used

/-- The statement does not import into a local variable that `ImportVariable` has given since
`ClearUsedVariables`. -/
def Statement.Spares (s : BodyState) : Statement → Prop
  | renderImportVariable _ localId => ∀ id, localId.resolve s.locals = some id → ¬ s.Imported id
  | .op o => ∀ var x id, .actImportVariable var x ∈ o.acts → s.locals x = some id → ¬ s.Imported id
  | _ => True

/-- What a statement renders: nothing; the import of a variable, which is new in `used_variables_`
or goes to another local variable; or an operation. -/
theorem BodyState.exec_cases {st : Statement} (hs : s.vars.Distinct)
    (h : s.exec (some getId) st = some s') :
    (s'.ops = s.ops ∧ ∀ e ∈ s'.vars.used, e ∈ s.vars.used) ∨
    (∃ var gid id, getId var = some gid ∧ gid.arg < 8 <<< 8 ∧
      s'.ops = s.ops ++ [⟨[], [.actImportVariable gid id]⟩] ∧
      (∀ e ∈ s'.vars.used, e = (var, id) ∨ e ∈ s.vars.used) ∧
      (st.Spares s → ∀ e ∈ s.vars.used, e.2.id ≠ id.id)) ∨
    ∃ op op', op.resolve s.locals getId = some op' ∧ s'.ops = s.ops ++ [op'] ∧
      s'.vars = s.vars ∧ st = .op op := by
  have hrender : ∀ {t t' : BodyState} {var id}, t.renderImport (some getId) var id = some t' →
      ∃ gid, getId var = some gid ∧ gid.arg < 8 <<< 8 ∧
        t'.ops = t.ops ++ [⟨[], [.actImportVariable gid id]⟩] ∧ t'.vars = t.vars := by
    intro t t' var id h
    obtain ⟨gid, hgid, h⟩ := Option.bind_eq_some_iff.mp h
    split at h
    · next harg =>
      cases h
      exact ⟨gid, hgid, harg, rfl, rfl⟩
    · cases h
  cases st with
  | importVariable x var =>
    simp only [exec] at h
    split at h
    · cases h
      exact .inl ⟨rfl, fun _ he => he⟩
    · obtain ⟨⟨id, vars⟩, hadd, h⟩ := Option.bind_eq_some_iff.mp h
      obtain ⟨between, himport, h⟩ := Option.bind_eq_some_iff.mp h
      cases h
      obtain ⟨gid, hgid, harg, hops, hvars⟩ := hrender himport
      obtain ⟨-, hused, hne⟩ := hs.addUsed hadd
      refine .inr (.inl ⟨var, gid, id, hgid, harg, hops, fun e he => ?_, fun _ => hne⟩)
      rw [assign, hvars] at he
      exact List.mem_cons.mp (hused ▸ he)
  | reserveVariable x =>
    obtain ⟨⟨id, vars⟩, hreserve, h⟩ := Option.bind_eq_some_iff.mp h
    cases h
    exact .inl ⟨rfl, fun e he => (hs.reserveVariable hreserve).2 ▸ he⟩
  | renderImportVariable var localId =>
    obtain ⟨id, hid, h⟩ := Option.bind_eq_some_iff.mp h
    obtain ⟨gid, hgid, harg, hops, hvars⟩ := hrender h
    refine .inr (.inl ⟨var, gid, id, hgid, harg, hops, fun e he => .inr (hvars ▸ he), ?_⟩)
    rintro hspares ⟨other, id'⟩ he heq
    have hsame : id' = id := by
      cases id'
      cases id
      cases heq
      rfl
    exact hspares id hid ⟨other, hsame ▸ he⟩
  | clearUsedVariables =>
    cases h
    exact .inl ⟨rfl, fun e he => by simp [LocalVariables.clearUsedVariables] at he⟩
  | op op =>
    obtain ⟨op', hop, h⟩ := Option.bind_eq_some_iff.mp h
    cases h
    exact .inr (.inr ⟨op, op', hop, rfl, rfl, rfl⟩)

theorem Op.resolve_eq_some {locals : Nat → Option LocalVariable} {op : Op Nat GlobalVariable}
    {op' : Op LocalVariable GlobalVariableId} (h : op.resolve locals getId = some op') :
    op'.Asserted ∧
      List.Forall₂ (fun a a' => Action.resolve locals getId a = some a') op.acts op'.acts := by
  obtain ⟨ifs, -, h⟩ := Option.bind_eq_some_iff.mp h
  obtain ⟨acts, hacts, h⟩ := Option.bind_eq_some_iff.mp h
  split at h
  · next hasserted =>
    cases h
    exact ⟨hasserted, Option.forall₂_of_mapM hacts⟩
  · cases h

theorem Action.resolve_eq_import {locals : Nat → Option LocalVariable}
    {a : Action Nat GlobalVariable} {gid : GlobalVariableId} {localVar : LocalVariable}
    (h : a.resolve locals getId = some (.actImportVariable gid localVar)) :
    ∃ var x, a = .actImportVariable var x ∧ locals x = some localVar := by
  cases a with
  | actImportVariable var x =>
    obtain ⟨_, -, h⟩ := Option.bind_eq_some_iff.mp h
    obtain ⟨id, hid, h⟩ := Option.bind_eq_some_iff.mp h
    cases h
    exact ⟨var, x, rfl, hid⟩
  | _ => simp [Action.resolve, Option.bind_eq_some_iff] at h

/-- The imports of an operation go to the local variables that it names. -/
theorem importsInto_resolve {locals : Nat → Option LocalVariable} {op : Op Nat GlobalVariable}
    {op' : Op LocalVariable GlobalVariableId} (h : op.resolve locals getId = some op') {id : Nat}
    (himports : ImportsInto op'.acts id) :
    ∃ var x localVar, .actImportVariable var x ∈ op.acts ∧ locals x = some localVar ∧
      localVar.id = id := by
  obtain ⟨gid, localVar, hmem, heq⟩ := himports
  obtain ⟨i, hi⟩ := List.mem_iff_getElem?.mp hmem
  obtain ⟨a, hget, ha⟩ : ∃ a, op.acts[i]? = some a ∧
      Action.resolve locals getId a = some (.actImportVariable gid localVar) := by
    have hforall := (Op.resolve_eq_some h).2
    have hlt : i < op.acts.length := by
      rw [hforall.length_eq]
      exact (List.getElem?_eq_some_iff.mp hi).1
    refine ⟨op.acts[i], List.getElem?_eq_getElem hlt, ?_⟩
    obtain ⟨hlt', hget'⟩ := List.getElem?_eq_some_iff.mp hi
    rw [← hget']
    exact (List.forall₂_iff_get.mp hforall).2 i hlt hlt'
  obtain ⟨var, x, rfl, hx⟩ := Action.resolve_eq_import ha
  exact ⟨var, x, localVar, List.mem_iff_getElem?.mpr ⟨i, hget⟩, hx, heq⟩

/-- The statement gives `x` another local variable, or forgets those that `ImportVariable` gave. -/
def Statement.Drops (x : Nat) : Statement → Prop
  | importVariable y _ => y = x
  | reserveVariable y => y = x
  | clearUsedVariables => True
  | _ => False

theorem LocalVariables.mem_of_find {vars : LocalVariables} {var : GlobalVariable}
    {id : LocalVariable} (h : vars.find var = some id) : (var, id) ∈ vars.used := by
  unfold find at h
  generalize vars.used = used at h ⊢
  induction used with
  | nil => cases h
  | cons e used ih =>
    obtain ⟨other, id'⟩ := e
    rw [List.lookup_cons] at h
    cases hsame : var == other with
    | true =>
      rw [hsame] at h
      cases h
      rw [beq_iff_eq.mp hsame]
      exact List.mem_cons_self
    | false =>
      rw [hsame] at h
      exact List.mem_cons_of_mem _ (ih h)

/-- `ImportVariable` gives a local variable that is in use for the variable. -/
theorem BodyState.exec_importVariable {output : Output} {x : Nat} {var : GlobalVariable}
    (h : s.exec output (.importVariable x var) = some s') :
    ∃ id, s'.locals x = some id ∧ (var, id) ∈ s'.vars.used := by
  simp only [exec] at h
  split at h
  · next id hfind =>
    cases h
    exact ⟨id, assign_locals_self, LocalVariables.mem_of_find hfind⟩
  · obtain ⟨⟨id, vars⟩, hadd, h⟩ := Option.bind_eq_some_iff.mp h
    obtain ⟨between, himport, h⟩ := Option.bind_eq_some_iff.mp h
    cases h
    obtain ⟨⟨id', next⟩, -, hadd⟩ := Option.bind_eq_some_iff.mp hadd
    cases hadd
    refine ⟨id, assign_locals_self, ?_⟩
    rw [assign_vars, (renderImport_vars himport).1]
    exact List.mem_cons_self

/-- Other statements leave it in use, up to `ClearUsedVariables`. -/
theorem BodyState.exec_keeps {output : Output} {st : Statement} {x : Nat} {var : GlobalVariable}
    {id : LocalVariable} (hkeeps : ¬ st.Drops x) (h : s.exec output st = some s')
    (hx : s.locals x = some id) (hused : (var, id) ∈ s.vars.used) :
    s'.locals x = some id ∧ (var, id) ∈ s'.vars.used := by
  cases st with
  | importVariable y other =>
    have hne : x ≠ y := fun heq => hkeeps heq.symm
    simp only [exec] at h
    split at h
    · cases h
      exact ⟨(assign_locals_of_ne hne).trans hx, hused⟩
    · obtain ⟨⟨id', vars⟩, hadd, h⟩ := Option.bind_eq_some_iff.mp h
      obtain ⟨between, himport, h⟩ := Option.bind_eq_some_iff.mp h
      cases h
      obtain ⟨⟨id'', next⟩, hnext, hadd⟩ := Option.bind_eq_some_iff.mp hadd
      cases hadd
      obtain ⟨hvars, hlocals⟩ := renderImport_vars himport
      refine ⟨by rw [assign_locals_of_ne hne, hlocals, hx], ?_⟩
      rw [assign_vars, hvars]
      exact List.mem_cons_of_mem _ (LocalVariables.getNextVariableId_used hnext ▸ hused)
  | reserveVariable y =>
    have hne : x ≠ y := fun heq => hkeeps heq.symm
    obtain ⟨⟨id', vars⟩, hreserve, h⟩ := Option.bind_eq_some_iff.mp h
    cases h
    obtain ⟨⟨id'', next⟩, hnext, hreserve⟩ := Option.bind_eq_some_iff.mp hreserve
    cases hreserve
    exact ⟨(assign_locals_of_ne hne).trans hx, LocalVariables.getNextVariableId_used hnext ▸ hused⟩
  | renderImportVariable other localId =>
    obtain ⟨id', -, h⟩ := Option.bind_eq_some_iff.mp h
    obtain ⟨hvars, hlocals⟩ := renderImport_vars h
    rw [hvars, hlocals]
    exact ⟨hx, hused⟩
  | clearUsedVariables => exact absurd trivial hkeeps
  | op op =>
    simp only [exec] at h
    split at h
    · cases h
      exact ⟨hx, hused⟩
    · obtain ⟨op', -, h⟩ := Option.bind_eq_some_iff.mp h
      cases h
      exact ⟨hx, hused⟩

theorem BodyState.execAll_keeps {output : Output} {statements : List Statement} {x : Nat}
    {var : GlobalVariable} {id : LocalVariable} (hkeeps : ∀ st ∈ statements, ¬ st.Drops x)
    (h : s.execAll output statements = some s') (hx : s.locals x = some id)
    (hused : (var, id) ∈ s.vars.used) : s'.locals x = some id ∧ (var, id) ∈ s'.vars.used := by
  induction statements generalizing s with
  | nil =>
    cases h
    exact ⟨hx, hused⟩
  | cons st statements ih =>
    rw [execAll_cons] at h
    obtain ⟨between, hexec, hrest⟩ := Option.bind_eq_some_iff.mp h
    obtain ⟨hx', hused'⟩ := exec_keeps (hkeeps st (by simp)) hexec hx hused
    exact ih (fun other hother => hkeeps other (by simp [hother])) hrest hx' hused'

/-- A local variable that `ImportVariable` gave is in use, up to `ClearUsedVariables`. -/
theorem BodyState.execAll_importVariable {output : Output} {x : Nat} {var : GlobalVariable}
    {earlier later : List Statement} (hkeeps : ∀ st ∈ later, ¬ st.Drops x)
    (h : s.execAll output (earlier ++ .importVariable x var :: later) = some s') :
    ∃ id, s'.locals x = some id ∧ (var, id) ∈ s'.vars.used := by
  rw [execAll_append] at h
  obtain ⟨before, -, hsuffix⟩ := Option.bind_eq_some_iff.mp h
  rw [execAll_cons] at hsuffix
  obtain ⟨given, himport, hrest⟩ := Option.bind_eq_some_iff.mp hsuffix
  obtain ⟨id, hx, hused⟩ := exec_importVariable himport
  exact ⟨id, execAll_keeps hkeeps hrest hx hused⟩

end Statements

/-! ## The runner at the code of a body -/

section Identity

variable {getId : GlobalVariable → Option GlobalVariableId} {s s' : BodyState}

/-- The local variables in use stand for the definitions of their variables. -/
def StandsFor (getId : GlobalVariable → Option GlobalVariableId) (s : BodyState) (m : Machine W) :
    Prop :=
  ∀ e ∈ s.vars.used, ∃ gid, getId e.1 = some gid ∧
    m.imported e.2.id = some (.declared (shortOffset gid.id), gid.arg)

/-- None of the statements imports into a local variable that `ImportVariable` has given since
`ClearUsedVariables`. -/
def SparesImported (getId : GlobalVariable → Option GlobalVariableId) :
    BodyState → List Statement → Prop
  | _, [] => True
  | s, st :: rest =>
    st.Spares s ∧ ∀ s', s.exec (some getId) st = some s' → SparesImported getId s' rest

theorem SparesImported.of_append {before after : List Statement}
    (h : SparesImported getId s (before ++ after)) : SparesImported getId s before := by
  induction before generalizing s with
  | nil => trivial
  | cons st before ih => exact ⟨h.1, fun s' hexec => ih (h.2 s' hexec)⟩

theorem SparesImported.at_append {st : Statement} {before after : List Statement}
    (h : SparesImported getId s (before ++ st :: after))
    (hexec : s.execAll (some getId) before = some s') : st.Spares s' := by
  induction before generalizing s with
  | nil =>
    cases hexec
    exact h.1
  | cons first before ih =>
    rw [BodyState.execAll_cons] at hexec
    obtain ⟨between, hfirst, hrest⟩ := Option.bind_eq_some_iff.mp hexec
    exact ih (h.2 between hfirst) hrest

/-- The actions of an operation keep the imports in use. -/
theorem performAll_standsFor {op : Op Nat GlobalVariable} {op' : Op LocalVariable GlobalVariableId}
    (hspares : (Statement.op op).Spares s) (hop : op.resolve s.locals getId = some op')
    {acts : List (Action LocalVariable GlobalVariableId)} (hacts : acts <+: op'.acts)
    {resolve : Nat → Nat} (hperform : performAll bits resolve m acts = .ok m')
    (h : StandsFor getId s m) : StandsFor getId s m' := by
  intro e he
  obtain ⟨gid, hgid, himported⟩ := h e he
  refine ⟨gid, hgid, ?_⟩
  rw [(performAll_frame hperform).imported e.2.id, himported]
  rintro ⟨var, localVar, hmem, heq⟩
  obtain ⟨g, x, id, hg, hx, hid⟩ := importsInto_resolve hop ⟨var, localVar, hacts.subset hmem, heq⟩
  have hsame : id = e.2 := by
    cases id
    obtain ⟨_, ⟨_, _⟩⟩ := e
    cases hid
    rfl
  exact hspares g x id hg hx ⟨e.1, hsame ▸ he⟩

/-- The variables in use have ids. -/
theorem BodyState.execAll_defined {statements : List Statement} (hs : s.vars.Distinct)
    (hdefined : ∀ e ∈ s.vars.used, ∃ gid, getId e.1 = some gid)
    (h : s.execAll (some getId) statements = some s') :
    ∀ e ∈ s'.vars.used, ∃ gid, getId e.1 = some gid := by
  induction statements generalizing s with
  | nil =>
    cases h
    exact hdefined
  | cons st statements ih =>
    rw [execAll_cons] at h
    obtain ⟨between, hexec, hrest⟩ := Option.bind_eq_some_iff.mp h
    refine ih (exec_distinct hs hexec) (fun e he => ?_) hrest
    rcases exec_cases hs hexec with ⟨-, hused⟩ | ⟨var, gid, id, hgid, -, -, hused, -⟩ |
      ⟨op, op', -, -, hvars, -⟩
    · exact hdefined e (hused e he)
    · rcases hused e he with rfl | he
      · exact ⟨gid, hgid⟩
      · exact hdefined e he
    · exact hdefined e (hvars ▸ he)

variable (bits) in
/-- What a statement renders keeps the imports in use, and imports what it adds to them. -/
theorem exec_standsFor {st : Statement} (hs : s.vars.Distinct)
    (hexec : s.exec (some getId) st = some s') :
    ∃ new, s'.ops = s.ops ++ new ∧ (∀ op ∈ new, op.Asserted) ∧
      (st.Spares s → ∀ m m' : Machine W, interpret bits shortOffset m new = .ok m' →
        StandsFor getId s m → StandsFor getId s' m') := by
  rcases BodyState.exec_cases hs hexec with ⟨hops, hused⟩ |
    ⟨var, gid, id, hgid, harg, hops, hused, hne⟩ | ⟨op, op', hop, hops, hvars, rfl⟩
  · refine ⟨[], by simp [hops], by simp, fun _ m m' hinterpret h e he => ?_⟩
    cases hinterpret
    exact h e (hused e he)
  · refine ⟨_, hops, fun op hmem => ?_, fun hspares m m' hinterpret h e he => ?_⟩
    · rw [List.mem_singleton.mp hmem]
      exact ⟨by simp, by simpa [Action.Admitted] using harg, by simp [Op.ifBytes],
        by simp [Op.actBytes, Action.bytes]⟩
    · rw [interpret_cons] at hinterpret
      obtain ⟨between, hop, hrest⟩ := Except.bind_eq_ok.mp hinterpret
      cases hrest
      obtain ⟨keep, hkeep, hop⟩ := Except.bind_eq_ok.mp hop
      cases hkeep
      obtain ⟨between', himport, hrest⟩ := Except.bind_eq_ok.mp hop
      cases hrest
      have himported := (Machine.importBit_eq_ok himport).2
      rcases hused e he with rfl | he
      · exact ⟨gid, hgid, by rw [himported, Function.update_self]⟩
      · obtain ⟨other, hother, hheld⟩ := h e he
        exact ⟨other, hother, by rw [himported, Function.update_of_ne (hne hspares e he), hheld]⟩
  · refine ⟨_, hops, fun o hmem => ?_, fun hspares m m' hinterpret h => ?_⟩
    · rw [List.mem_singleton.mp hmem]
      exact (Op.resolve_eq_some hop).1
    · rw [interpret_cons] at hinterpret
      obtain ⟨between, hfirst, hrest⟩ := Except.bind_eq_ok.mp hinterpret
      cases hrest
      obtain ⟨keep, -, hacts⟩ := Except.bind_eq_ok.mp hfirst
      have hkeep : StandsFor getId s m' := by
        cases keep with
        | false =>
          cases hacts
          exact h
        | true => exact performAll_standsFor hspares hop (List.prefix_refl _) hacts h
      rwa [StandsFor, hvars]

variable (bits) in
/-- What statements render keeps the imports in use, and imports what they add to them. -/
theorem execAll_standsFor {statements : List Statement} (hs : s.vars.Distinct)
    (hexec : s.execAll (some getId) statements = some s') :
    ∃ new, s'.ops = s.ops ++ new ∧ (∀ op ∈ new, op.Asserted) ∧
      (SparesImported getId s statements → ∀ m m' : Machine W,
        interpret bits shortOffset m new = .ok m' →
          StandsFor getId s m → StandsFor getId s' m') := by
  induction statements generalizing s with
  | nil =>
    cases hexec
    refine ⟨[], by simp, by simp, fun _ m m' hinterpret h => ?_⟩
    cases hinterpret
    exact h
  | cons st statements ih =>
    rw [BodyState.execAll_cons] at hexec
    obtain ⟨between, hfirst, hrest⟩ := Option.bind_eq_some_iff.mp hexec
    obtain ⟨new1, hops1, hasserted1, hholds1⟩ := exec_standsFor bits hs hfirst
    obtain ⟨new2, hops2, hasserted2, hholds2⟩ := ih (BodyState.exec_distinct hs hfirst) hrest
    refine ⟨new1 ++ new2, by rw [hops2, hops1, List.append_assoc], fun op hop => ?_,
      fun hspares m m' hinterpret h => ?_⟩
    · rcases List.mem_append.mp hop with hop | hop
      · exact hasserted1 op hop
      · exact hasserted2 op hop
    · rw [interpret, List.foldlM_append] at hinterpret
      obtain ⟨mid, hmid, hend⟩ := Except.bind_eq_ok.mp hinterpret
      exact hholds2 (hspares.2 between hfirst) mid m' hend (hholds1 hspares.1 m mid hmid h)

end Identity

/-- The ids of the variables are offsets in the preamble. -/
theorem variableIds_lt {vs : List Variable} {size i id : Nat}
    (h : (variableIds vs size)[i]? = some id) : id < size + (renderVariables vs size).length := by
  induction vs generalizing size i with
  | nil => simp [variableIds] at h
  | cons v vs ih =>
    rw [renderVariables, List.length_append]
    cases i with
    | zero =>
      cases h
      have := (definitionOffset_lt v size).2
      omega
    | succ i =>
      have := ih h
      omega

theorem le_variableIds {vs : List Variable} {size i id : Nat}
    (h : (variableIds vs size)[i]? = some id) : size ≤ id := by
  induction vs generalizing size i with
  | nil => simp [variableIds] at h
  | cons v vs ih =>
    cases i with
    | zero =>
      cases h
      exact (definitionOffset_lt v size).1
    | succ i =>
      have := ih h
      omega

theorem length_variableIds (vs : List Variable) (size : Nat) :
    (variableIds vs size).length = vs.length := by
  induction vs generalizing size with
  | nil => rfl
  | cons v vs ih => rw [variableIds, List.length_cons, ih, List.length_cons]

/-- The machine that `CreateVarzAndAutomatas` leaves has the objects of all variables. -/
theorem Runner.Creates.declares {b : Board} {rendering : Rendering} (h : rendering.Of b)
    (hpreamble : b.preamble.length < 2 ^ 16)
    (hnonzero : ∀ offset ∈ rendering.offsets, offset % 2 ^ 16 ≠ 0) {automatas : List RunnerAutomata}
    (hcreates : Runner.Creates bits rendering.output m automatas m') :
    Declares b.globalVariables b.tableSize m' := by
  obtain ⟨r, ip, htable, hruns⟩ := hcreates
  have hr := readTable_end h.reads_table hnonzero htable
  have hsize : 0 + 2 * rendering.offsets.length + 2 = b.tableSize := by
    rw [h.length_offsets, Board.tableSize, Nat.zero_add]
  rw [hr, hsize] at hruns
  obtain ⟨ip', other, hother, hdeclares⟩ := runs_preamble bits (m := m) h.admitted
    h.reads_variables hpreamble
  cases Run.Halts.unique hruns hother
  exact hdeclares

/-- Each variable has an id of its own. -/
theorem variableIds_injective {vs : List Variable} {size i j id : Nat}
    (hi : (variableIds vs size)[i]? = some id) (hj : (variableIds vs size)[j]? = some id) :
    i = j := by
  induction vs generalizing size i j with
  | nil => simp [variableIds] at hi
  | cons v vs ih =>
    have hfirst := (definitionOffset_lt v size).2
    rw [variableIds] at hi hj
    cases i with
    | zero =>
      cases j with
      | zero => rfl
      | succ j =>
        rw [List.getElem?_cons_zero, Option.some.injEq] at hi
        have := le_variableIds ((List.getElem?_cons_succ ..).symm.trans hj)
        omega
    | succ i =>
      cases j with
      | zero =>
        rw [List.getElem?_cons_zero, Option.some.injEq] at hj
        have := le_variableIds ((List.getElem?_cons_succ ..).symm.trans hi)
        omega
      | succ j => rw [ih hi hj]

/-! ## Runs after `CreateVarzAndAutomatas` -/

section Sessions

variable {b : Board} {rendering : Rendering}

/-- The automaton whose body is at an offset of a rendering. -/
theorem Rendering.Of.body (h : rendering.Of b) {k offset : Nat}
    (hoffset : rendering.offsets[k]? = some offset) :
    ∃ a started s, b.automatas[k]? = some a ∧ a.start = some started ∧
      started.execAll (some b.getId) a.body = some s ∧
      Reads rendering.output offset (Automata.render s.ops) := by
  have hlt : k < b.automatas.length := by
    rw [← h.length_offsets]
    exact (List.getElem?_eq_some_iff.mp hoffset).1
  have hlt' : k < rendering.bodies.length := h.length ▸ hlt
  have hrendered := (List.forall₂_iff_get.mp (Option.forall₂_of_mapM h.bodies)).2 k hlt hlt'
  obtain ⟨started, hstart, hexec⟩ := Option.bind_eq_some_iff.mp hrendered
  exact ⟨_, started, _, List.getElem?_eq_getElem hlt, hstart, hexec,
    h.reads_body hoffset (List.getElem?_eq_getElem hlt')⟩

theorem Automaton.start_empty {a : Automaton} {s : BodyState} (h : a.start = some s) :
    s.ops = [] ∧ s.vars.used = [] := by
  obtain ⟨prepared, -, h⟩ := Option.bind_eq_some_iff.mp h
  cases h
  exact ⟨rfl, rfl⟩

/-- What a body renders from its start on. -/
theorem Automaton.start_execAll {a : Automaton} {getId : GlobalVariable → Option GlobalVariableId}
    {started s : BodyState} {statements : List Statement} (bits : BitObjects W)
    (hstart : a.start = some started) (hexec : started.execAll (some getId) statements = some s) :
    (∀ op ∈ s.ops, op.Asserted) ∧ (SparesImported getId started statements →
      ∀ m m' : Machine W, interpret bits shortOffset m s.ops = .ok m' → StandsFor getId s m') := by
  obtain ⟨hops, hused⟩ := start_empty hstart
  obtain ⟨new, hnew, hasserted, hholds⟩ :=
    execAll_standsFor bits (start_distinct hstart) hexec
  rw [hops, List.nil_append] at hnew
  rw [hnew]
  refine ⟨hasserted, fun hspares m m' hinterpret => hholds hspares m m' hinterpret fun e he => ?_⟩
  simp [hused] at he

/-- The header that ends a run changes nothing. -/
theorem machine_of_step {r r' : Runner W} (h : Runner.step bits code r = .inr (.ok r')) :
    r'.machine = r.machine := by
  unfold Runner.step at h
  split at h
  · cases h
  · next insn next hload =>
    split at h
    · cases h
      unfold Runner.loadInsn at hload
      split at hload
      · cases hload
      · cases hload
        rfl
    · split at h <;> cases h

/-- A run of an automaton does not change the objects of the definitions. -/
theorem Rendering.Of.runs_declared (h : rendering.Of b) {offset : Nat}
    (hoffset : offset ∈ rendering.offsets) {r : Runner W}
    (hruns : Runner.Runs bits rendering.output (Runner.resetForAutomata m offset) (.ok r)) :
    r.machine.declared = m.declared := by
  obtain ⟨k, hk⟩ := List.mem_iff_getElem?.mp hoffset
  obtain ⟨a, started, s, -, hstart, hexec, hreads⟩ := h.body hk
  obtain ⟨t, hreached, hend⟩ := hruns
  obtain ⟨before, after, -, -, hinterpret⟩ :=
    reaches_cases (Automaton.start_execAll bits hstart hexec).1 hreads hreached
  rw [machine_of_step hend, interpret_declared hinterpret]

/-- The machine after `CreateVarzAndAutomatas` and any number of runs of automata.  In between, the
runner takes another automaton, and the bits get other values. -/
inductive Runner.Later (bits : BitObjects W) (rendering : Rendering) (created : Machine W) :
    Machine W → Prop
  | created : Later bits rendering created created
  | ran {m : Machine W} {offset : Nat} {r : Runner W} (before : Later bits rendering created m)
      (hoffset : offset ∈ rendering.offsets)
      (hruns : Runs bits rendering.output (resetForAutomata m offset) (.ok r)) :
      Later bits rendering created r.machine
  | changed {m m' : Machine W} (before : Later bits rendering created m)
      (hdeclared : m'.declared = m.declared) : Later bits rendering created m'

theorem Runner.Later.declared (h : rendering.Of b) {created : Machine W}
    (hlater : Runner.Later bits rendering created m) : m.declared = created.declared := by
  induction hlater with
  | created => rfl
  | ran _ hoffset hruns ih => exact (h.runs_declared hoffset hruns).trans ih
  | changed _ hdeclared ih => exact hdeclared.trans ih

/-- A local variable names the object of a definition, which is what is read and written there. -/
structure Machine.Names (m : Machine W) (id : LocalVariable) (definition arg : Nat)
    (object : ReadWriteBit) : Prop where
  bit : m.getBit id.id = .ok (.declared definition, arg)
  object : m.object definition = .ok object

theorem Machine.Names.read {id : LocalVariable} {definition arg : Nat} {object : ReadWriteBit}
    (h : m.Names id definition arg object) (hbit : object.isBit) :
    m.read bits id.id = .ok (bits.read definition object arg m.world) := by
  rw [Machine.read, h.bit]
  simp only [Except.ok_bind]
  rw [h.object]
  simp [hbit]

theorem Machine.Names.write {id : LocalVariable} {definition arg : Nat} {object : ReadWriteBit}
    (h : m.Names id definition arg object) (hbit : object.isBit) (value : Bool) :
    m.write bits id.id value = .ok { m with
      world := bits.write definition object arg value m.world
      effects := m.effects ++ [.write definition arg value] } := by
  rw [Machine.write, h.bit]
  simp only [Except.ok_bind]
  rw [h.object]
  simp [hbit]

theorem Board.getId_eq_some {var : GlobalVariable} {gid : GlobalVariableId}
    (h : b.getId var = some gid) :
    ∃ v, b.globalVariables[var.definition]? = some v ∧ gid.arg = var.arg ∧
      (variableIds b.globalVariables b.tableSize)[var.definition]? = some gid.id := by
  obtain ⟨definition, hdefinition, h⟩ := Option.bind_eq_some_iff.mp h
  cases h
  have hlt : var.definition < b.globalVariables.length := by
    rw [← length_variableIds b.globalVariables b.tableSize]
    exact (List.getElem?_eq_some_iff.mp hdefinition).1
  exact ⟨_, List.getElem?_eq_getElem hlt, rfl, hdefinition⟩

/-- A local variable in use names the object of the definition of its variable. -/
theorem StandsFor.names {s : BodyState} {var : GlobalVariable} {id : LocalVariable}
    (hstands : StandsFor b.getId s m) (hused : (var, id) ∈ s.vars.used)
    {gid : GlobalVariableId} (hgid : b.getId var = some gid) {v : Variable}
    (hv : b.globalVariables[var.definition]? = some v) (hpreamble : b.preamble.length < 2 ^ 16)
    (hdeclares : Declares b.globalVariables b.tableSize m) :
    m.Names id gid.id gid.arg v.object := by
  obtain ⟨gid', hgid', himported⟩ := hstands _ hused
  cases hgid.symm.trans hgid'
  obtain ⟨-, -, -, hdefinition⟩ := Board.getId_eq_some hgid
  have hsmall : gid.id < 2 ^ 16 := by
    have := variableIds_lt hdefinition
    simp only [Board.preamble, List.length_append, List.length_replicate] at hpreamble
    omega
  constructor
  case bit =>
    rw [Machine.getBit, if_neg (Nat.not_le.mpr id.isLt), himported, shortOffset,
      Nat.mod_eq_of_lt hsmall]
  case object => rw [Machine.object, hdeclares _ _ _ hv hdefinition]

end Sessions

/-- Where no body starts at a multiple of 2¹⁶ and no statement of a body imports into a local
variable that is in use, the local variables in use are distinct, and each of them names the object
of the definition of its own variable whenever the runner is at the code where it is used. -/
theorem imported_names_own_object (bits : BitObjects W) (b : Board) (rendering : Rendering)
    (hrender : b.render = some rendering) (hpreamble : b.preamble.length < 65536)
    (hnonzero : ∀ offset ∈ rendering.offsets, offset % 65536 ≠ 0)
    (k offset : Nat) (hoffset : rendering.offsets[k]? = some offset)
    (a : Automaton) (ha : b.automatas[k]? = some a)
    (started : BodyState) (hstart : a.start = some started)
    (hspares : SparesImported b.getId started a.body)
    (before after : List Statement) (hbody : a.body = before ++ after)
    (s : BodyState) (hs : started.execAll (some b.getId) before = some s) :
    s.vars.Distinct ∧
    ∀ earlier later x var, before = earlier ++ .importVariable x var :: later →
      (∀ st ∈ later, ¬ st.Drops x) →
      ∃ id definition v, s.locals x = some id ∧
        b.globalVariables[var.definition]? = some v ∧
        b.getId var = some ⟨definition, var.arg⟩ ∧
        (∀ other arg, b.getId other = some ⟨definition, arg⟩ → other.definition = var.definition) ∧
        ∀ op rest op', after = .op op :: rest → op.resolve s.locals b.getId = some op' →
        ∀ m automatas created m', Runner.Creates bits rendering.output m automatas created →
        Runner.Later bits rendering created m' →
        ∀ r, Run.Reaches (Runner.step bits rendering.output) (Runner.resetForAutomata m' offset) r →
          r.ip = offset + (s.ops.flatMap Op.bytes).length →
        ∀ acts m'', acts <+: op'.acts → performAll bits shortOffset r.machine acts = .ok m'' →
          m''.Names id definition var.arg v.object := by
  have h := Board.render_eq_some hrender
  have hdistinct := BodyState.execAll_distinct (Automaton.start_distinct hstart) hs
  refine ⟨hdistinct, fun earlier later x var hbefore hkeeps => ?_⟩
  rw [hbody] at hspares
  obtain ⟨id, hx, hused⟩ := BodyState.execAll_importVariable hkeeps (hbefore ▸ hs)
  obtain ⟨a', started', full, ha', hstart', hfull, hreads⟩ := h.body hoffset
  cases ha.symm.trans ha'
  cases hstart.symm.trans hstart'
  have hasserted := (Automaton.start_execAll bits hstart hfull).1
  rw [hbody, BodyState.execAll_append, hs] at hfull
  obtain ⟨rendered, hops, -, -⟩ := execAll_standsFor bits hdistinct hfull
  obtain ⟨gid, hgid⟩ := BodyState.execAll_defined (Automaton.start_distinct hstart)
    (fun e he => by simp [(Automaton.start_empty hstart).2] at he) hs _ hused
  obtain ⟨v, hv, harg, hdefinition⟩ := Board.getId_eq_some hgid
  obtain ⟨definition, arg⟩ := gid
  cases harg
  refine ⟨id, definition, v, hx, hv, hgid, fun other arg hother => ?_, ?_⟩
  · obtain ⟨-, -, -, hsame⟩ := Board.getId_eq_some hother
    exact variableIds_injective hsame hdefinition
  · intro op rest op' hafter hop m automatas created m' hcreates hlater r hreached hip acts m''
      hacts hperform
    -- The operations that the runner has carried out are those that the statements before rendered.
    obtain ⟨done, remaining, hsplit, hdone, hinterpret⟩ := reaches_cases hasserted hreads hreached
    have hsame : done = s.ops :=
      eq_of_length_bytes (hsplit.symm.trans hops) (by omega)
    rw [hsame] at hinterpret
    have hstands := (Automaton.start_execAll bits hstart hs).2 hspares.of_append _ _ hinterpret
    have hopSpares : (Statement.op op).Spares s := (hafter ▸ hspares).at_append hs
    have hdeclared : m''.declared = created.declared := by
      rw [(performAll_frame hperform).declared, interpret_declared hinterpret]
      exact hlater.declared h
    have hdeclares : Declares b.globalVariables b.tableSize m'' := by
      have := Runner.Creates.declares h hpreamble hnonzero hcreates
      unfold Declares at this ⊢
      rwa [hdeclared]
    exact (performAll_standsFor hopSpares hop hacts hperform hstands).names hused hgid hv hpreamble
      hdeclares

/-- An operation on a local variable. -/
def setOp : Op Nat GlobalVariable := ⟨[.ifReg0 0], [.actReg1 0]⟩

/-- A board with two variables and an automaton with this body. -/
def twoVariables (body : List Statement) : Board where
  automatas := [⟨[], body⟩]
  globalVariables := [.eventBased 0x100 0x101 0 24 0, .eventBased 0x102 0x103 0 24 1]

/-- The second of two variables. -/
theorem imported_names_second :
    ∃ rendering, (twoVariables [.importVariable 0 ⟨1, 0⟩, .op setOp]).render = some rendering ∧
    ∀ m automatas created, Runner.Creates zeroBits rendering.output m automatas created →
    ∀ r, Run.Reaches (Runner.step zeroBits rendering.output)
        (Runner.resetForAutomata created 57) r → r.ip = 63 →
      r.machine.Names ⟨1, by decide⟩ 54 0 (.eventBit 0x102 0x103 2 0 24) := by
  have hspares : ∀ getId s, SparesImported getId s [.importVariable 0 ⟨1, 0⟩, .op setOp] :=
    fun _ _ => ⟨trivial, fun _ _ => ⟨fun _ _ _ hmem => by simp [setOp] at hmem, fun _ _ => trivial⟩⟩
  obtain ⟨id, definition, v, hx, hv, hid, -, hnames⟩ := (imported_names_own_object zeroBits
    (twoVariables [.importVariable 0 ⟨1, 0⟩, .op setOp]) _ rfl (by decide) (by decide) 0 57 rfl _
    rfl _ rfl (hspares _ _) [.importVariable 0 ⟨1, 0⟩] [.op setOp] rfl _ rfl).2
    [] [] 0 ⟨1, 0⟩ rfl (by simp)
  cases hx
  cases hv
  cases hid
  refine ⟨_, rfl, fun m automatas created hcreates r hreached hip => ?_⟩
  exact hnames setOp [] _ rfl rfl m automatas created created hcreates .created r hreached hip []
    r.machine List.nil_prefix rfl

/-- What is rendered where the local variable of the first variable is given to
`RenderImportVariable` for the second one. -/
def redirectedOps : List (Op LocalVariable GlobalVariableId) :=
  [⟨[], [.actImportVariable ⟨28, 0⟩ ⟨1, one_lt_maxImportVar⟩]⟩,
    ⟨[], [.actImportVariable ⟨54, 0⟩ ⟨1, one_lt_maxImportVar⟩]⟩,
    ⟨[.ifReg0 ⟨1, one_lt_maxImportVar⟩], [.actReg1 ⟨1, one_lt_maxImportVar⟩]⟩]

/-- The local variable of the first variable is given to `RenderImportVariable` for the second one.
-/
theorem redirected_names_other : ∃ rendering automatas created ip result,
    (twoVariables [.importVariable 0 ⟨0, 0⟩, .renderImportVariable ⟨1, 0⟩ (.of 0),
      .op setOp]).render = some rendering ∧
    Runner.Creates zeroBits rendering.output (Machine.init ()) automatas created ∧
    created.declared 28 = some (.eventBit 0x100 0x101 1 0 24) ∧
    created.declared 54 = some (.eventBit 0x102 0x103 2 0 24) ∧
    Runner.Runs zeroBits rendering.output (Runner.resetForAutomata created 57)
      (.ok ⟨ip, result⟩) ∧
    result.effects = [.imported 1 28 0, .imported 1 54 0, .write 54 0 true] := by
  have hrender : (twoVariables [.importVariable 0 ⟨0, 0⟩, .renderImportVariable ⟨1, 0⟩ (.of 0),
      .op setOp]).render = some _ := rfl
  have h := Board.render_eq_some hrender
  obtain ⟨created, hcreates⟩ := h.creates zeroBits (m := Machine.init ()) (by decide)
    (by decide) (by decide) (by decide)
  have hdeclares := Runner.Creates.declares h (by decide) (by decide) hcreates
  have hfirst : created.declared 28 = some (.eventBit 0x100 0x101 1 0 24) := hdeclares 0 _ _ rfl rfl
  have hsecond : created.declared 54 = some (.eventBit 0x102 0x103 2 0 24) :=
    hdeclares 1 _ _ rfl rfl
  have hreads : Reads _ 57 (render redirectedOps) := h.reads_body (k := 0) rfl rfl
  have hadmitted : ∀ op ∈ redirectedOps, op.Admitted := by
    intro op hop
    simp only [redirectedOps, List.mem_cons, List.not_mem_nil, or_false] at hop
    rcases hop with rfl | rfl | rfl
    · exact ⟨by decide, by decide⟩
    · exact ⟨by decide, by decide⟩
    · exact ⟨by decide, by decide⟩
  have hinterpret : ∃ result, interpret zeroBits shortOffset
      (Runner.resetForAutomata created 57).machine redirectedOps = .ok result ∧
      result.effects = [.imported 1 28 0, .imported 1 54 0, .write 54 0 true] := by
    simp [redirectedOps, interpret, Op.interpret, performAll, holdAll, Action.perform,
      Condition.holds, Machine.importBit, Machine.read, Machine.write, Machine.getBit,
      Machine.object, Runner.resetForAutomata, ReadWriteBit.isBit, shortOffset, zeroBits,
      maxImportVar, hfirst, hsecond]
  obtain ⟨result, hresult, heffects⟩ := hinterpret
  have hruns := runs_body zeroBits (m := (Runner.resetForAutomata created 57).machine) hadmitted
    hreads
  rw [hresult] at hruns
  exact ⟨_, _, created, _, result, hrender, hcreates, hfirst, hsecond, hruns, heffects⟩

end OpenmrnCue.Automata
