import OpenmrnCue.Library.FirstFit
import OpenmrnCue.Library.Trace
import OpenmrnCue.Logic.Variable

/-! `OlcbVariableFactory::create_variable`: the binding of the names of boolean variables to the
slots of a logic block's import table.  The table is kept in the configuration file and is searched
anew at every request, so that a variable keeps its events when the program is compiled again. -/

namespace OpenmrnCue.Logic

/-! ### The configuration -/

/-- `openlcb::StringConfigEntry<size>`: a text of fewer than `size` bytes. -/
structure StringConfigEntry (size : Nat) where
  bytes : Bytes
  fits : bytes.length < size

/-- `StringConfigEntry::write` keeps as many bytes as the entry has room for. -/
def StringConfigEntry.write {size : Nat} (hsize : 0 < size) (text : Bytes) :
    StringConfigEntry size where
  bytes := text.take (size - 1)
  fits := by
    rw [List.length_take]
    omega

/-- `LogicBlockImport`. -/
structure LogicBlockImport where
  name : StringConfigEntry 32
  eventOn : UInt64
  eventOff : UInt64

/-- `LogicBlockBody`, with the entries of `ReptImports`. -/
structure LogicBlockBody where
  imports : Fin 12 → LogicBlockImport

/-- `LogicConfig`, with the entries of `ReptBlock`. -/
structure LogicConfig where
  blocks : Fin 8 → LogicBlockBody

/-- The name of an entry of the import table. -/
def LogicBlockBody.name (body : LogicBlockBody) (varidx : Fin 12) : Bytes :=
  (body.imports varidx).name.bytes

/-- `e.name().write(config_fd_, name)` for an entry `e` of the import table of a block. -/
def LogicConfig.writeName (cfg : LogicConfig) (block : Fin 8) (varidx : Fin 12) (name : Bytes) :
    LogicConfig :=
  let e := (cfg.blocks block).imports varidx
  let imports := Function.update (cfg.blocks block).imports varidx
    { e with name := .write (by decide) name }
  { cfg with blocks := Function.update cfg.blocks block { imports := imports } }

/-! ### Creating a variable -/

/-- `OlcbBoolVariable`, as it is constructed. -/
structure OlcbBoolVariable where
  eventOn : UInt64
  eventOff : UInt64
  deriving DecidableEq

def LogicBlockImport.variable (e : LogicBlockImport) : OlcbBoolVariable :=
  { eventOn := e.eventOn, eventOff := e.eventOff }

/-- How the loop of `create_variable` ends: at the entry of the variable, or behind the last entry
with `freeidx`. -/
inductive Search where
  | found (varidx : Fin 12)
  | done (freeidx : Option (Fin 12))

/-- The loop of `create_variable` over the entries that are left. -/
def searchImports (body : LogicBlockBody) (name : Bytes) :
    List (Fin 12) → Option (Fin 12) → Search
  | [], freeidx => .done freeidx
  | varidx :: rest, freeidx =>
    if body.name varidx = name then .found varidx
    else if body.name varidx = [] ∧ freeidx = none then searchImports body name rest (some varidx)
    else searchImports body name rest freeidx

/-- The part of `create_variable` behind its checks.  With the variable stands the slot whose events
it has, and behind it the configuration. -/
def createBool (cfg : LogicConfig) (block : Fin 8) (name : Bytes) :
    Option (Fin 12 × OlcbBoolVariable) × LogicConfig :=
  match searchImports (cfg.blocks block) name (List.finRange 12) none with
  | .found varidx => (some (varidx, ((cfg.blocks block).imports varidx).variable), cfg)
  | .done none => (none, cfg)
  | .done (some freeidx) =>
    (some (freeidx, (((cfg.writeName block freeidx name).blocks block).imports freeidx).variable),
      cfg.writeName block freeidx name)

/-- `create_variable`, or `none` if its assertion fails. -/
def createVariable (cfg : LogicConfig) (request : VariableCreationRequest) :
    Option (Option (Fin 12 × OlcbBoolVariable) × LogicConfig) :=
  if hblock : request.blockNum.toNat < 8 then
    if request.type ≠ .bool then some (none, cfg)
    else some (createBool cfg ⟨request.blockNum.toNat, hblock⟩ request.name)
  else none

/-- The configuration after a request. -/
def afterRequest (cfg : LogicConfig) (request : VariableCreationRequest) : Option LogicConfig :=
  (createVariable cfg request).map Prod.snd

/-! ### The import table as a table that is filled first fit -/

/-- A name as the table keeps it. -/
def stored (name : Bytes) : Bytes := name.take 31

section

variable {cfg cfg' : LogicConfig} {block : Fin 8} {body : LogicBlockBody} {name : Bytes}

theorem stored_eq_iff : stored name = name ↔ name.length ≤ 31 := by
  constructor
  · intro h
    rw [← h, stored, List.length_take]
    omega
  · exact List.take_of_length_le

theorem stored_name (varidx : Fin 12) : stored (body.name varidx) = body.name varidx :=
  stored_eq_iff.mpr (Nat.le_of_lt_succ (body.imports varidx).name.fits)

/-- The loop finds the first entry with the name, or else the first free one. -/
theorem searchImports_eq (order : List (Fin 12)) (freeidx : Option (Fin 12)) :
    searchImports body name order freeidx =
      match FirstFit.first order body.name name with
      | some varidx => .found varidx
      | none => .done (freeidx.or (FirstFit.first order body.name [])) := by
  induction order generalizing freeidx with
  | nil => simp [searchImports, FirstFit.first]
  | cons varidx rest ih =>
    rw [searchImports]
    by_cases hfound : body.name varidx = name
    · simp [hfound, FirstFit.first]
    · have hrest : FirstFit.first (varidx :: rest) body.name name =
          FirstFit.first rest body.name name := by
        simp [FirstFit.first, hfound]
      rw [if_neg hfound, hrest]
      by_cases hfree : body.name varidx = []
      · have hvacant : FirstFit.first (varidx :: rest) body.name [] = some varidx := by
          simp [FirstFit.first, hfree]
        cases freeidx with
        | none => rw [if_pos ⟨hfree, rfl⟩, ih, hvacant]; rfl
        | some old => rw [if_neg (by simp), ih]; rfl
      · have hvacant : FirstFit.first (varidx :: rest) body.name [] =
            FirstFit.first rest body.name [] := by
          simp [FirstFit.first, hfree]
        rw [if_neg fun h => hfree h.1, ih, hvacant]

/-- The names of a block are those of a table that is filled first fit. -/
def LogicBlockBody.cell (body : LogicBlockBody) (name : Bytes) : Option (Fin 12) :=
  FirstFit.cell (List.finRange 12) [] body.name name

def LogicBlockBody.request (body : LogicBlockBody) (name : Bytes) : Fin 12 → Bytes :=
  FirstFit.request (List.finRange 12) [] stored body.name name

@[simp] theorem name_writeName (varidx : Fin 12) :
    ((cfg.writeName block varidx name).blocks block).name =
      Function.update (cfg.blocks block).name varidx (stored name) := by
  funext i
  by_cases hi : i = varidx
  · subst hi
    simp [LogicConfig.writeName, LogicBlockBody.name, StringConfigEntry.write, stored]
  · simp [LogicConfig.writeName, LogicBlockBody.name, Function.update_of_ne hi]

theorem blocks_writeName {other : Fin 8} (varidx : Fin 12) (h : other ≠ block) :
    (cfg.writeName block varidx name).blocks other = cfg.blocks other :=
  Function.update_of_ne h _ _

/-- Writing a name edits no event. -/
@[simp] theorem variable_writeName {other : Fin 8} {i : Fin 12} (varidx : Fin 12) :
    (((cfg.writeName block varidx name).blocks other).imports i).variable =
      ((cfg.blocks other).imports i).variable := by
  by_cases hother : other = block
  · subst hother
    by_cases hi : i = varidx
    · subst hi
      simp [LogicConfig.writeName, LogicBlockImport.variable]
    · simp [LogicConfig.writeName, Function.update_of_ne hi]
  · rw [blocks_writeName varidx hother]

/-- What a request does: it gets the cell of the table, with the events of the cell. -/
theorem createBool_fst : (createBool cfg block name).1 =
    ((cfg.blocks block).cell name).map fun i => (i, ((cfg.blocks block).imports i).variable) := by
  rw [createBool, searchImports_eq, LogicBlockBody.cell, FirstFit.cell]
  cases FirstFit.first (List.finRange 12) (cfg.blocks block).name name with
  | some varidx => rfl
  | none =>
    cases FirstFit.first (List.finRange 12) (cfg.blocks block).name [] with
    | some freeidx => simp
    | none => rfl

theorem createBool_snd_name :
    ((createBool cfg block name).2.blocks block).name = (cfg.blocks block).request name := by
  rw [createBool, searchImports_eq, LogicBlockBody.request, FirstFit.request]
  cases FirstFit.first (List.finRange 12) (cfg.blocks block).name name with
  | some varidx => rfl
  | none =>
    cases FirstFit.first (List.finRange 12) (cfg.blocks block).name [] with
    | some freeidx => simp
    | none => rfl

/-- A request writes at most one name of its block. -/
theorem createBool_snd (cfg : LogicConfig) (block : Fin 8) (name : Bytes) :
    (createBool cfg block name).2 = cfg ∨
      ∃ varidx, (createBool cfg block name).2 = cfg.writeName block varidx name := by
  unfold createBool
  split
  · exact .inl rfl
  · exact .inl rfl
  · exact .inr ⟨_, rfl⟩

/-- A request leaves the configuration alone or is served by its block. -/
theorem afterRequest_cases {r : VariableCreationRequest} (h : afterRequest cfg r = some cfg') :
    cfg' = cfg ∨ ∃ block, cfg' = (createBool cfg block r.name).2 := by
  unfold afterRequest createVariable at h
  split at h
  case isFalse => cases h
  case isTrue hblock =>
    split at h
    · cases h
      exact .inl rfl
    · cases h
      exact .inr ⟨_, rfl⟩

/-- Names are kept, whatever a request asks for. -/
theorem afterRequest_name {r : VariableCreationRequest} {other : Fin 8} {i : Fin 12}
    (h : afterRequest cfg r = some cfg') (hname : (cfg.blocks other).name i ≠ []) :
    (cfg'.blocks other).name i = (cfg.blocks other).name i := by
  rcases afterRequest_cases h with rfl | ⟨block, rfl⟩
  · rfl
  by_cases hother : other = block
  · subst hother
    rw [createBool_snd_name]
    exact FirstFit.request_taken hname
  · rcases createBool_snd cfg block r.name with heq | ⟨varidx, heq⟩
    · rw [heq]
    · rw [heq, blocks_writeName varidx hother]

/-- Events are not edited. -/
theorem afterRequest_variable {r : VariableCreationRequest} (other : Fin 8) (i : Fin 12)
    (h : afterRequest cfg r = some cfg') :
    ((cfg'.blocks other).imports i).variable = ((cfg.blocks other).imports i).variable := by
  rcases afterRequest_cases h with rfl | ⟨block, rfl⟩
  · rfl
  · rcases createBool_snd cfg block r.name with heq | ⟨varidx, heq⟩
    · rw [heq]
    · rw [heq, variable_writeName]

end

/-! ### Sequences of requests -/

/-- A request for a boolean variable of a block, under a name. -/
structure VariableCreationRequest.ForBlock (block : Fin 8) (r : VariableCreationRequest) :
    Prop where
  blockNum : r.blockNum.toNat = block.val
  type : r.type = .bool
  name : r.name ≠ []

/-- The configuration after a sequence of requests. -/
abbrev afterRequests (cfg : LogicConfig) (history : List VariableCreationRequest) :
    Option LogicConfig :=
  Trace.run afterRequest cfg history

/-- The request behind the sequence `past` is successful, with a slot and the variable. -/
def Creates (cfg : LogicConfig) (past : List VariableCreationRequest) (r : VariableCreationRequest)
    (slot : Fin 12) (v : OlcbBoolVariable) : Prop :=
  ∃ c c', afterRequests cfg past = some c ∧ createVariable c r = some (some (slot, v), c')

/-- A name that stood in the table from the start, or for which a request was successful. -/
def Bound (cfg : LogicConfig) (block : Fin 8) (past : List VariableCreationRequest) (name : Bytes) :
    Prop :=
  (∃ i, (cfg.blocks block).name i = name) ∨
    ∃ before r after slot v, past = before ++ r :: after ∧ r.name = name ∧
      Creates cfg before r slot v

/-- The names of variables are bound to slots for good. -/
structure StableBinding (cfg : LogicConfig) (block : Fin 8)
    (history : List VariableCreationRequest) : Prop where
  /-- Successful requests get the same slot if and only if their names are equal; the same slot has
  the same events. -/
  same_slot : ∀ past r middle r' future slot v slot' v',
    history = past ++ r :: (middle ++ r' :: future) →
    Creates cfg past r slot v → Creates cfg (past ++ r :: middle) r' slot' v' →
      (slot = slot' ↔ r.name = r'.name) ∧ (slot = slot' → v = v')
  /-- A slot whose name is not empty is never renamed. -/
  keeps_names : Trace.EachStep afterRequest (fun _ c _ c' => ∀ other i,
    (c.blocks other).name i ≠ [] → (c'.blocks other).name i = (c.blocks other).name i) cfg history
  /-- A request fails only when its name is not bound and no slot is free. -/
  fails : ∀ past r future c c', history = past ++ r :: future →
    afterRequests cfg past = some c → createVariable c r = some (none, c') →
      ¬ Bound cfg block past r.name ∧ ∀ i, (c.blocks block).name i ≠ []

/-- Every name that is asked for has at most 31 bytes, or no slot is free when it is asked for. -/
def NamesFit (cfg : LogicConfig) (block : Fin 8) (history : List VariableCreationRequest) : Prop :=
  Trace.EachStep afterRequest
    (fun _ c r _ => r.name.length ≤ 31 ∨ ∀ i, (c.blocks block).name i ≠ []) cfg history

section

variable {cfg c c' : LogicConfig} {block : Fin 8} {r r' : VariableCreationRequest} {slot : Fin 12}
  {v : OlcbBoolVariable} {history past future : List VariableCreationRequest}

theorem createVariable_eq (hr : r.ForBlock block) :
    createVariable c r = some (createBool c block r.name) := by
  have hblock : r.blockNum.toNat < 8 := hr.blockNum ▸ block.isLt
  have heq : (⟨r.blockNum.toNat, hblock⟩ : Fin 8) = block := Fin.ext hr.blockNum
  rw [createVariable, dif_pos hblock, if_neg (by simp [hr.type]), heq]

theorem afterRequest_eq (hr : r.ForBlock block) :
    afterRequest c r = some (createBool c block r.name).2 := by
  rw [afterRequest, createVariable_eq hr]
  rfl

/-- A successful request gets the cell of its name. -/
theorem creates_iff (hr : r.ForBlock block) (hpast : afterRequests cfg past = some c) :
    Creates cfg past r slot v ↔
      (c.blocks block).cell r.name = some slot ∧ v = ((c.blocks block).imports slot).variable := by
  constructor
  · rintro ⟨d, d', hd, hcreate⟩
    cases hpast.symm.trans hd
    rw [createVariable_eq hr, Option.some.injEq, Prod.ext_iff, createBool_fst,
      Option.map_eq_some_iff] at hcreate
    obtain ⟨⟨i, hcell, heq⟩, _⟩ := hcreate
    cases heq
    exact ⟨hcell, rfl⟩
  · rintro ⟨hcell, rfl⟩
    refine ⟨c, (createBool c block r.name).2, hpast, ?_⟩
    rw [createVariable_eq hr, Option.some.injEq, Prod.ext_iff, createBool_fst, hcell]
    exact ⟨rfl, rfl⟩

theorem creates_of_cell (hr : r.ForBlock block) (hpast : afterRequests cfg past = some c)
    (hcell : (c.blocks block).cell r.name = some slot) :
    Creates cfg past r slot ((c.blocks block).imports slot).variable :=
  (creates_iff hr hpast).mpr ⟨hcell, rfl⟩

/-- A request fails if its name has no cell. -/
theorem cell_of_fails (hr : r.ForBlock block) (h : createVariable c r = some (none, c')) :
    (c.blocks block).cell r.name = none := by
  rw [createVariable_eq hr, Option.some.injEq, Prod.ext_iff, createBool_fst] at h
  exact Option.map_eq_none_iff.mp h.1

/-- Requests for a block can always be made. -/
theorem afterRequests_isSome (h : ∀ r ∈ history, r.ForBlock block) :
    ∃ c, afterRequests cfg history = some c := by
  induction history using List.reverseRecOn with
  | nil => exact ⟨cfg, rfl⟩
  | append_singleton past r ih =>
    obtain ⟨c, hc⟩ := ih fun q hq => h q (List.mem_append_left _ hq)
    refine ⟨(createBool c block r.name).2, Trace.run_concat_eq_some.mpr ⟨c, hc, ?_⟩⟩
    exact afterRequest_eq (h r (by simp))

theorem afterRequests_name {other : Fin 8} {i : Fin 12} (h : afterRequests cfg history = some c)
    (hname : (cfg.blocks other).name i ≠ []) :
    (c.blocks other).name i = (cfg.blocks other).name i := by
  refine Trace.invariant_of_step
    (I := fun _ c => (c.blocks other).name i = (cfg.blocks other).name i) rfl ?_ h
  intro past r t u ih hstep
  rw [afterRequest_name hstep (ih ▸ hname), ih]

theorem afterRequests_variable (other : Fin 8) (i : Fin 12)
    (h : afterRequests cfg history = some c) :
    ((c.blocks other).imports i).variable = ((cfg.blocks other).imports i).variable := by
  refine Trace.invariant_of_step (I := fun _ c =>
    ((c.blocks other).imports i).variable = ((cfg.blocks other).imports i).variable) rfl ?_ h
  intro past r t u ih hstep
  rw [afterRequest_variable other i hstep, ih]

/-- Every slot that a request got is the one where its name is found from then on. -/
theorem bound_slot (hblock : ∀ r ∈ history, r.ForBlock block) (hfit : NamesFit cfg block history)
    (hrun : afterRequests cfg history = some c) {before after : List VariableCreationRequest}
    (hhistory : history = before ++ r :: after) (hcreates : Creates cfg before r slot v) :
    FirstFit.first (List.finRange 12) (c.blocks block).name r.name = some slot := by
  induction history using List.reverseRecOn generalizing c after with
  | nil => simp at hhistory
  | append_singleton past q ih =>
    obtain ⟨t, ht, hstep⟩ := Trace.run_concat_eq_some.mp hrun
    have hq := hblock q (by simp)
    have hstore : stored q.name = q.name ∨
        FirstFit.first (List.finRange 12) (t.blocks block).name [] = none :=
      (Trace.EachStep.last hfit ht hstep).imp stored_eq_iff.mpr
        fun h => FirstFit.first_eq_none.mpr fun i _ => h i
    have hname : (c.blocks block).name = (t.blocks block).request q.name := by
      rw [afterRequest_eq hq] at hstep
      cases hstep
      exact createBool_snd_name
    rw [hname]
    rcases Trace.concat_eq_append_cons hhistory with ⟨rfl, rfl, _⟩ | ⟨rest, rfl, _⟩
    · exact FirstFit.first_request_self hstore ((creates_iff hq ht).mp hcreates).1
    · refine FirstFit.first_request (hblock r (by simp)).name ?_ hstore
      exact ih (fun p hp => hblock p (List.mem_append_left _ hp)) (Trace.EachStep.of_append hfit)
        ht rfl

/-- As long as the names fit, their bindings are stable. -/
theorem stableBinding_of_namesFit (hblock : ∀ r ∈ history, r.ForBlock block)
    (hfit : NamesFit cfg block history) : StableBinding cfg block history where
  same_slot := by
    intro past r middle r' future slot v slot' v' heq hcreates hcreates'
    have hr : r.ForBlock block := hblock r (by simp [heq])
    have hr' : r'.ForBlock block := hblock r' (by simp [heq])
    obtain ⟨c, _, hc, _⟩ := id hcreates
    obtain ⟨c', _, hc', _⟩ := id hcreates'
    obtain ⟨hcell, rfl⟩ := (creates_iff hr hc).mp hcreates
    obtain ⟨hcell', rfl⟩ := (creates_iff hr' hc').mp hcreates'
    have hpast : history = (past ++ r :: middle) ++ r' :: future := by simp [heq]
    have hfirst := bound_slot
      (fun q hq => hblock q (by rw [hpast]; exact List.mem_append_left _ hq))
      (Trace.EachStep.of_append (hpast ▸ hfit)) hc' rfl hcreates
    constructor
    · constructor
      · intro hslot
        by_contra hne
        exact FirstFit.cell_ne hr.name (Ne.symm hne) hfirst hcell' hslot.symm
      · intro hname
        rw [hname] at hfirst
        exact Option.some.inj ((FirstFit.cell_of_first hfirst).symm.trans hcell')
    · rintro rfl
      rw [afterRequests_variable block slot hc, afterRequests_variable block slot hc']
  keeps_names := fun _ _ _ _ _ _ _ hstep _ _ hname => afterRequest_name hstep hname
  fails := by
    intro past r future c c' heq hc hfails
    have hr : r.ForBlock block := hblock r (by simp [heq])
    obtain ⟨hnone, hfull⟩ := FirstFit.cell_eq_none (cell_of_fails hr hfails)
    refine ⟨?_, fun i => hfull i (List.mem_finRange i)⟩
    rintro (⟨i, hi⟩ | ⟨before, q, after, slot, v, rfl, hname, hcreates⟩)
    · refine hnone i (List.mem_finRange i) ?_
      rw [afterRequests_name hc (hi ▸ hr.name), hi]
    · have hfirst := bound_slot
        (fun p hp => hblock p (by rw [heq]; exact List.mem_append_left _ hp))
        (Trace.EachStep.of_append (heq ▸ hfit)) hc rfl hcreates
      exact hnone slot (List.mem_finRange slot) (hname ▸ FirstFit.first_holds hfirst)

/-! ### Names that do not fit -/

/-- The table holds no name of more than 31 bytes. -/
theorem first_of_long {body : LogicBlockBody} {name : Bytes} (hlong : 31 < name.length) :
    FirstFit.first (List.finRange 12) body.name name = none := by
  refine FirstFit.first_eq_none.mpr fun i _ hi => ?_
  have hle : name.length ≤ 31 := stored_eq_iff.mp (hi ▸ stored_name i)
  omega

/-- A name that does not fit gets a slot where it is not found again, so that the second request for
it gets another slot or fails. -/
theorem unstable_of_long (hr : r.ForBlock block) (hrun : afterRequests cfg past = some c)
    (hlong : 31 < r.name.length) (hfree : ∃ i, (c.blocks block).name i = []) :
    ¬ StableBinding cfg block (past ++ [r] ++ [r]) := by
  intro hstable
  have hcell : ∀ body : LogicBlockBody,
      body.cell r.name = FirstFit.first (List.finRange 12) body.name [] := by
    intro body
    rw [LogicBlockBody.cell, FirstFit.cell, first_of_long hlong, Option.none_or]
  obtain ⟨slot, hslot⟩ :
      ∃ slot, FirstFit.first (List.finRange 12) (c.blocks block).name [] = some slot := by
    obtain ⟨i, hi⟩ := hfree
    refine Option.ne_none_iff_exists'.mp fun hnone => ?_
    exact FirstFit.first_eq_none.mp hnone i (List.mem_finRange i) hi
  have hcreates := creates_of_cell hr hrun (hcell (c.blocks block) ▸ hslot)
  have hrun' : afterRequests cfg (past ++ [r]) = some (createBool c block r.name).2 :=
    Trace.run_concat_eq_some.mpr ⟨c, hrun, afterRequest_eq hr⟩
  have hname : ((createBool c block r.name).2.blocks block).name slot = stored r.name := by
    rw [createBool_snd_name, LogicBlockBody.request,
      FirstFit.request_of_vacant (first_of_long hlong) hslot, Function.update_self]
  cases hcell' : ((createBool c block r.name).2.blocks block).cell r.name with
  | none =>
    have hfails : createVariable (createBool c block r.name).2 r =
        some (none, (createBool (createBool c block r.name).2 block r.name).2) := by
      rw [createVariable_eq hr, Option.some.injEq, Prod.ext_iff, createBool_fst, hcell']
      exact ⟨rfl, rfl⟩
    refine (hstable.fails (past ++ [r]) r [] _ _ rfl hrun' hfails).1 (.inr ?_)
    exact ⟨past, r, [], slot, _, rfl, rfl, hcreates⟩
  | some slot' =>
    have hcreates' := creates_of_cell hr hrun' hcell'
    have hslots := (hstable.same_slot past r [] r [] _ _ _ _ (by simp) hcreates hcreates').1.mpr rfl
    have hvacant := FirstFit.first_holds (hcell _ ▸ hcell')
    rw [← hslots, hname] at hvacant
    refine hr.name (List.eq_nil_of_length_eq_zero ?_)
    have hlength := congrArg List.length hvacant
    rw [stored, List.length_take, List.length_nil] at hlength
    omega

/-- A request that came before can come again. -/
theorem NamesFit.again (hfit : NamesFit cfg block past) (hmem : r ∈ past) :
    NamesFit cfg block (past ++ [r]) := by
  refine Trace.EachStep.concat hfit fun t _ hrun _ => ?_
  obtain ⟨before, after, rfl⟩ := List.append_of_mem hmem
  rw [Trace.run_append, Option.bind_eq_some_iff] at hrun
  obtain ⟨s, hs, hafter⟩ := hrun
  obtain ⟨u, hu, _⟩ := Option.bind_eq_some_iff.mp (Trace.run_cons ▸ hafter)
  refine (hfit before r after s u rfl hs hu).imp_right fun hfull i => ?_
  rw [afterRequests_name hafter (hfull i)]
  exact hfull i

/-- As long as the names fit, names are bound to slots for good; and they fit exactly if that stays
so wherever a request is made again. -/
theorem binding_stable (cfg : LogicConfig) (block : Fin 8)
    (history : List VariableCreationRequest) (hblock : ∀ r ∈ history, r.ForBlock block) :
    (NamesFit cfg block history → StableBinding cfg block history) ∧
    (NamesFit cfg block history ↔ ∀ past future, history = past ++ future →
      ∀ r ∈ past, StableBinding cfg block (past ++ [r])) := by
  refine ⟨stableBinding_of_namesFit hblock, ?_, ?_⟩
  · rintro hfit past future rfl r hr
    have hpast : NamesFit cfg block past := Trace.EachStep.of_append hfit
    refine stableBinding_of_namesFit (fun q hq => hblock q ?_) (hpast.again hr)
    rcases List.mem_append.mp hq with hq | hq
    · exact List.mem_append_left _ hq
    · rw [List.mem_singleton.mp hq]
      exact List.mem_append_left _ hr
  · intro hstable
    by_contra hlong
    obtain ⟨past, r, future, c, _, rfl, _, hrun, _, hbreak⟩ := Trace.EachStep.exists_first hlong
    simp only [not_or, Nat.not_le, not_forall, Decidable.not_not] at hbreak
    refine unstable_of_long (hblock r (by simp)) hrun hbreak.1 hbreak.2 ?_
    exact hstable (past ++ [r]) future (by simp) r (by simp)

end

/-! ### Two names, and one that is too long -/

/-- A configuration with no names, and an event of its own for each side of an entry. -/
def LogicConfig.unnamed : LogicConfig where
  blocks block := { imports := fun i =>
    { name := .write (by decide) []
      eventOn := (24 * block.val + 2 * i.val).toUInt64
      eventOff := (24 * block.val + 2 * i.val + 1).toUInt64 } }

/-- A request of the first block for a boolean variable. -/
def requestOf (name : Bytes) : VariableCreationRequest :=
  { VariableCreationRequest.cleared with name := name }

theorem forBlock_requestOf {name : Bytes} (h : name ≠ []) : (requestOf name).ForBlock 0 :=
  ⟨rfl, rfl, h⟩

/-- The names `a`, `b` and `a` again. -/
def twoNames : List VariableCreationRequest := [requestOf [97], requestOf [98], requestOf [97]]

theorem twoNames_stable : StableBinding .unnamed 0 twoNames := by
  refine (binding_stable .unnamed 0 twoNames ?_).1 ?_
  · intro r hr
    simp only [twoNames, List.mem_cons, List.not_mem_nil, or_false] at hr
    rcases hr with rfl | rfl | rfl <;> exact forBlock_requestOf (by decide)
  · intro past r future c c' heq _ _
    have hshort : ∀ r ∈ twoNames, r.name.length ≤ 31 := by decide
    exact .inl (hshort r (by simp [heq]))

/-- A name of 32 bytes. -/
def longName : Bytes := List.replicate 32 97

/-- A second request for a name of 32 bytes gets a slot of its own. -/
theorem longName_unstable :
    (requestOf longName).ForBlock 0 ∧
    ¬ StableBinding .unnamed 0 [requestOf longName, requestOf longName] := by
  have hr : (requestOf longName).ForBlock 0 := forBlock_requestOf (by decide)
  have hrun : afterRequests .unnamed [] = some .unnamed := rfl
  exact ⟨hr, unstable_of_long hr hrun (by decide) ⟨0, rfl⟩⟩

example :
    ((createVariable .unnamed (requestOf longName)).bind fun made =>
      (createVariable made.2 (requestOf longName)).map fun again =>
        (made.1.map Prod.fst, again.1.map Prod.fst)) = some (some 0, some 1) := by
  decide

end OpenmrnCue.Logic
