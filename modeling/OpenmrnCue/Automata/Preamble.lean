import OpenmrnCue.Automata.Board
import OpenmrnCue.Automata.Refinement

/-! The run of the preamble: each definition creates the object of its variable, with the event ids
of the variable, and declares it at the offset that is the id of the variable. -/

namespace OpenmrnCue.Automata

variable {W : Type} {bits : BitObjects W} {code : List Insn} {ip : Nat} {m : Machine W}

/-- The object that the definition of a variable asks for. -/
def Variable.object : Variable → ReadWriteBit
  | eventBased eventOn eventOff client offset bit =>
    .eventBit eventOn eventOff (1 <<< UInt8.ofNat (bit &&& 7)) (client &&& 31) (offset % 32)
  | eventBlock eventBase size => .eventBlockBit eventBase size
  | signal eventBase _ => .eventByteBlock eventBase 2
  | byteImport eventBase _ => .eventByteBlockConsumer eventBase 1

/-! ## Operations of one action -/

/-- The step of `Run` on an operation that has one action and no condition. -/
theorem step_single {acts : List Insn} (hsome : acts ≠ []) (hsize : acts.length < 16)
    (hreads : Reads code ip (createOperation [] acts)) {m' : Machine W}
    (hexec : Runner.execAction bits code ⟨ip + 1, m⟩ (ip + 1 + acts.length) =
      .ok ⟨ip + 1 + acts.length, m'⟩) :
    Runner.step bits code ⟨ip, m⟩ = .inl ⟨ip + 1 + acts.length, m'⟩ := by
  have hpos : acts.length ≠ 0 := by simpa using hsome
  obtain ⟨hnumif, hnumact, hzero⟩ := header_fields acts.length hsize 0 (by decide)
  obtain ⟨n, hn⟩ := Nat.exists_eq_succ_of_ne_zero hpos
  have hdone : Runner.execActions bits code (ip + 1 + acts.length) n
      ⟨ip + 1 + acts.length, m'⟩ = .ok ⟨ip + 1 + acts.length, m'⟩ := by
    cases n with
    | zero => rfl
    | succ n => rw [Runner.execActions, if_pos (Nat.le_refl _)]
  have hactions : Runner.execActions bits code (ip + 1 + acts.length) acts.length ⟨ip + 1, m⟩ =
      .ok ⟨ip + 1 + acts.length, m'⟩ := by
    rw [show Runner.execActions bits code (ip + 1 + acts.length) acts.length ⟨ip + 1, m⟩ =
      Runner.execActions bits code (ip + 1 + acts.length) (n + 1) ⟨ip + 1, m⟩ by rw [hn],
      Runner.execActions, if_neg (show ¬ ip + 1 + acts.length ≤ ip + 1 by omega), hexec]
    exact hdone
  rw [Runner.step, loadInsn_of_reads hreads]
  simp only
  rw [List.length_nil, if_neg (fun h => hpos (hzero.mp h).2), Runner.runOperation, hnumif, hnumact]
  simp only [Runner.evalConditions, Except.ok_bind, if_true, Nat.add_zero, hactions]

/-- The accumulator that `CreateEventId` sets. -/
def eventIdSlot (dst : Bool) : Fin 2 := if dst then 1 else 0

theorem length_eventIdBytes (id : UInt64) (n : Nat) : (eventIdBytes id n).length = n + 1 := by
  induction n with
  | zero => rfl
  | succ n ih => rw [eventIdBytes, List.length_cons, ih]

theorem length_createEventId (dst : Bool) (id : UInt64) : (createEventId dst id).length = 11 := by
  simp [createEventId, createOperation, length_eventIdBytes]

theorem step_createEventId {dst : Bool} {id : UInt64}
    (hreads : Reads code ip (createEventId dst id)) :
    Runner.step bits code ⟨ip, m⟩ =
      .inl ⟨ip + 11, { m with eventIds := Function.update m.eventIds (eventIdSlot dst) id }⟩ := by
  have htype : ∀ dst, let type : Insn := if dst then 0b01010111 else 0b00000111
      Runner.eventIdIndex type 6 = eventIdSlot dst ∧
        Runner.eventIdIndex type 4 = eventIdSlot dst ∧ (type &&& 7).toNat = 7 := by
    decide
  obtain ⟨hdest, hsrc, hcount⟩ := htype dst
  have hlength : (Insn.actSetEventid :: (if dst then (0b01010111 : Insn) else 0b00000111) ::
      eventIdBytes id 7).length = 10 := by
    simp [length_eventIdBytes]
  have hexec := execAction_eventId bits (m := m) hdest hsrc hcount
    (hreads.tail : Reads code (ip + 1) _) (Nat.le_refl _)
  have hstep := step_single (by simp) (by rw [hlength]; decide) hreads
    (by rw [hlength]; exact hexec)
  rw [hstep, hlength]

/-! ## Definitions -/

theorem arg2_fields : ∀ offset < 32, ∀ bit < 8,
    let byte := UInt8.ofNat (offset <<< 3) ||| UInt8.ofNat bit
    (byte >>> 3).toNat = offset ∧ byte &&& 7 = UInt8.ofNat bit := by
  decide

theorem client_fields : ∀ client < 32, ((UInt8.ofNat client) >>> 5).toNat = 0 ∧
    ((UInt8.ofNat client) &&& 0b11111).toNat = client := by
  decide

theorem blockSize_fields : ∀ high < 8,
    let byte := ((1 : Insn) <<< 5) ||| UInt8.ofNat (high &&& 7)
    (byte >>> 5).toNat = 1 ∧ (byte &&& 0b11111).toNat &&& 7 = high := by
  decide

theorem blockSize_join (size : Nat) :
    (size >>> 8) <<< 8 ||| (UInt8.ofNat (size &&& 0xff)).toNat = size := by
  rw [toNat_ofNat_land, ← Nat.shiftLeft_add_eq_or_of_lt (by omega), Nat.shiftLeft_eq,
    Nat.shiftRight_eq_div_pow]
  omega

theorem ofNat_shiftLeft_three (offset : Nat) :
    UInt8.ofNat (offset <<< 3) = UInt8.ofNat ((offset % 32) <<< 3) := by
  apply UInt8.toNat_inj.mp
  simp only [UInt8.toNat_ofNat', Nat.shiftLeft_eq]
  omega

/-- The accumulators hold the event ids of a variable. -/
def Variable.HasEventIds (v : Variable) (m : Machine W) : Prop :=
  match v with
  | eventBased eventOn eventOff _ _ _ => m.eventIds 1 = eventOn ∧ m.eventIds 0 = eventOff
  | eventBlock eventBase _ => m.eventIds 0 = eventBase
  | signal eventBase _ => m.eventIds 0 = eventBase
  | byteImport eventBase _ => m.eventIds 0 = eventBase

theorem createVariable_eq {v : Variable} (hadmitted : v.Admitted) (hids : v.HasEventIds m)
    (hreads : Reads code ip [v.arg1, v.arg2]) :
    Runner.createVariable code ⟨ip, m⟩ = .ok (v.object, ⟨ip + 2, m⟩) := by
  rw [Runner.createVariable, loadInsn_of_reads hreads]
  simp only [Except.ok_bind]
  rw [loadInsn_of_reads hreads.tail]
  simp only [Except.ok_bind]
  cases v with
  | eventBased eventOn eventOff client offset bit =>
    have hclient : client &&& 31 < 32 := Nat.lt_succ_of_le Nat.and_le_right
    have hbit : bit &&& 7 < 8 := Nat.lt_succ_of_le Nat.and_le_right
    obtain ⟨htype, hclientByte⟩ := client_fields _ hclient
    obtain ⟨hoffset, hmask⟩ := arg2_fields (offset % 32) (Nat.mod_lt _ (by decide)) _ hbit
    have harg2 : (Variable.eventBased eventOn eventOff client offset bit).arg2 =
        UInt8.ofNat ((offset % 32) <<< 3) ||| UInt8.ofNat (bit &&& 7) := by
      rw [Variable.arg2, ofNat_shiftLeft_three]
    simp only [harg2, Variable.arg1, htype, hclientByte, hoffset, hmask, hids.1, hids.2,
      Variable.object]
  | eventBlock eventBase size =>
    have hsize : size < 2048 := hadmitted
    obtain ⟨htype, hhigh⟩ := blockSize_fields (size >>> 8) (by
      rw [Nat.shiftRight_eq_div_pow]
      omega)
    simp only [Variable.arg1, Variable.arg2, htype, hhigh, blockSize_join, Variable.object]
    rw [show m.eventIds 0 = eventBase from hids]
  | signal eventBase signalId =>
    have htype : (((2 : Insn) <<< 5) >>> 5).toNat = 2 := by decide
    simp only [Variable.arg1, Variable.arg2, htype, Variable.object]
    rw [show m.eventIds 0 = eventBase from hids]
    rfl
  | byteImport eventBase defaultValue =>
    have htype : (((3 : Insn) <<< 5) >>> 5).toNat = 3 := by decide
    simp only [Variable.arg1, Variable.arg2, htype, Variable.object]
    rw [show m.eventIds 0 = eventBase from hids]
    rfl

theorem step_definition {v : Variable} (hadmitted : v.Admitted) (hids : v.HasEventIds m)
    (hreads : Reads code ip (Variable.renderHelper v.arg1 v.arg2)) :
    Runner.step bits code ⟨ip, m⟩ =
      .inl ⟨ip + 4, ((Runner.mk ip m).declare bits (ip + 2) v.object).machine⟩ := by
  have hacts : [Insn.actDefVar, v.arg1, v.arg2] ≠ [] := by simp
  refine step_single hacts (by simp) hreads ?_
  rw [Runner.execAction, loadInsn_of_reads hreads.tail]
  simp only [Except.ok_bind]
  rw [if_neg (by decide), if_neg (by decide), if_pos trivial,
    createVariable_eq hadmitted hids hreads.tail.tail]
  simp only [Except.ok_bind, List.length_cons, List.length_nil]
  rw [if_neg (show ¬ ip + 1 + (0 + 1 + 1 + 1) < ip + 1 + 1 + 2 by omega)]
  rfl

/-! ## Variables -/

variable (bits) in
/-- The event ids of a variable get to the accumulators. -/
theorem reaches_eventIds {v : Variable} (hreads : Reads code ip v.eventIds) :
    ∃ ids, Run.Reaches (Runner.step bits code) ⟨ip, m⟩
        ⟨ip + v.eventIds.length, { m with eventIds := ids }⟩ ∧
      v.HasEventIds { m with eventIds := ids } := by
  have hone : ∀ id, Reads code ip (createEventId false id) → ∃ ids,
      Run.Reaches (Runner.step bits code) ⟨ip, m⟩
        ⟨ip + (createEventId false id).length, { m with eventIds := ids }⟩ ∧ ids 0 = id := by
    intro id hid
    refine ⟨_, ?_, Function.update_self (0 : Fin 2) id m.eventIds⟩
    rw [length_createEventId]
    exact Run.Reaches.single (step_createEventId hid)
  cases v with
  | eventBased eventOn eventOff client offset bit =>
    have hsecond := hreads.append_right
    rw [length_createEventId] at hsecond
    have hlength :
        (Variable.eventBased eventOn eventOff client offset bit).eventIds.length = 22 := by
      simp [Variable.eventIds, length_createEventId]
    rw [hlength]
    refine ⟨_, (Run.Reaches.single (step_createEventId hreads.append_left)).trans
      (Run.Reaches.single (step_createEventId hsecond)), ?_⟩
    simp [Variable.HasEventIds, eventIdSlot, Function.update]
  | eventBlock eventBase size => exact hone eventBase hreads
  | signal eventBase signalId => exact hone eventBase hreads
  | byteImport eventBase defaultValue => exact hone eventBase hreads

variable (bits) in
/-- The first byte of a declared byte variable can be set. -/
theorem interpret_fixFirstByte {id : Nat} (hsmall : id < 2 ^ 16) {object : ReadWriteBit}
    (hdeclared : m.declared id = some object) (hbyte : object.isBit = false) (value : UInt8) :
    ∃ m', interpret bits shortOffset m (Variable.fixFirstByte id value) = .ok m' ∧
      m'.declared = m.declared := by
  have hid : shortOffset id = id := Nat.mod_eq_of_lt hsmall
  have himport : m.importBit Variable.fixedVar.id id 0 =
      .ok { m with
        imported := Function.update m.imported Variable.fixedVar.id (some (.declared id, 0))
        effects := m.effects ++ [.imported Variable.fixedVar.id id 0] } := by
    rw [Machine.importBit, hdeclared]
  refine ⟨{ m with
    imported := Function.update m.imported Variable.fixedVar.id (some (.declared id, 0))
    world := bits.setState id object 0 value m.world
    effects := m.effects ++ [.imported Variable.fixedVar.id id 0] ++ [.setState id 0 value] },
    ?_, rfl⟩
  rw [Variable.fixFirstByte, interpret_cons, Op.interpret, holdAll]
  simp only [Except.ok_bind, if_true]
  rw [performAll, Action.perform, hid, himport]
  simp only [Except.ok_bind, performAll]
  rw [interpret_cons, Op.interpret, holdAll]
  simp only [Except.ok_bind, if_true]
  rw [performAll, Action.perform, Machine.setState, Machine.getBit, if_neg (by decide)]
  simp only [Function.update_self, Except.ok_bind, Machine.object, hdeclared, hbyte]
  rfl

variable (bits) in
/-- The rendering of a variable declares its object. -/
theorem reaches_render {v : Variable} (hadmitted : v.Admitted)
    (hreads : Reads code ip (v.render ip))
    (hsmall : v.definitionOffset ip < 2 ^ 16) :
    ∃ m', Run.Reaches (Runner.step bits code) ⟨ip, m⟩ ⟨ip + (v.render ip).length, m'⟩ ∧
      m'.declared = Function.update m.declared (v.definitionOffset ip) (some v.object) := by
  rw [Variable.render, List.append_assoc] at hreads
  obtain ⟨ids, hreached, hids⟩ := reaches_eventIds bits (m := m) hreads.append_left
  have hafter := hreads.append_right
  have hdefined := hreached.tail (step_definition hadmitted hids hafter.append_left)
  have hinitial : Reads code (ip + v.eventIds.length + 4)
      ((v.initialOps ip).flatMap Op.bytes) := hafter.append_right
  have hlength : (v.render ip).length =
      v.eventIds.length + 4 + ((v.initialOps ip).flatMap Op.bytes).length := by
    rw [Variable.render, List.length_append, List.length_append]
    rfl
  rw [hlength, ← Nat.add_assoc, ← Nat.add_assoc]
  have hfix : ∀ value, v.initialOps ip = Variable.fixFirstByte (v.definitionOffset ip) value →
      v.object.isBit = false →
      ∃ m', Run.Reaches (Runner.step bits code) ⟨ip, m⟩
        ⟨ip + v.eventIds.length + 4 + ((v.initialOps ip).flatMap Op.bytes).length, m'⟩ ∧
        m'.declared = Function.update m.declared (v.definitionOffset ip) (some v.object) := by
    intro value hops hbyte
    rw [hops] at hinitial ⊢
    obtain ⟨m', hinterpret, hdeclared⟩ := interpret_fixFirstByte bits
      (m := ((Runner.mk (ip + v.eventIds.length) { m with eventIds := ids }).declare bits
        (v.definitionOffset ip) v.object).machine)
      hsmall (Function.update_self _ _ _) hbyte value
    refine ⟨m', hdefined.trans (reaches_ops ?_ hinitial hinterpret), hdeclared⟩
    intro op hop
    rcases List.mem_cons.mp hop with rfl | hop
    · exact ⟨⟨by simp, by simp [Action.Admitted], Nat.zero_lt_succ _,
        by simp [Op.actBytes, Action.bytes]⟩, by simp⟩
    · rw [List.mem_singleton.mp hop]
      exact ⟨⟨by simp, by simp [Action.Admitted], Nat.zero_lt_succ _,
        by simp [Op.actBytes, Action.bytes]⟩, by simp⟩
  cases v with
  | eventBased eventOn eventOff client offset bit => exact ⟨_, hdefined, rfl⟩
  | eventBlock eventBase size => exact ⟨_, hdefined, rfl⟩
  | signal eventBase signalId => exact hfix signalId rfl rfl
  | byteImport eventBase defaultValue => exact hfix defaultValue rfl rfl

theorem definitionOffset_lt (v : Variable) (size : Nat) :
    size ≤ v.definitionOffset size ∧ v.definitionOffset size < size + (v.render size).length := by
  have hlength : (v.render size).length =
      v.eventIds.length + 4 + ((v.initialOps size).flatMap Op.bytes).length := by
    rw [Variable.render, List.length_append, List.length_append]
    rfl
  rw [hlength, Variable.definitionOffset]
  omega

/-- The objects of the variables are declared under their ids. -/
def Declares (vs : List Variable) (size : Nat) (m : Machine W) : Prop :=
  ∀ (i : Nat) (v : Variable) (id : Nat), vs[i]? = some v → (variableIds vs size)[i]? = some id →
    m.declared id = some v.object

variable (bits) in
/-- The rendering of the variables declares their objects, and nothing below it. -/
theorem reaches_variables {vs : List Variable} (hadmitted : ∀ v ∈ vs, v.Admitted)
    (hreads : Reads code ip (renderVariables vs ip))
    (hsmall : ip + (renderVariables vs ip).length < 2 ^ 16) :
    ∃ m', Run.Reaches (Runner.step bits code) ⟨ip, m⟩ ⟨ip + (renderVariables vs ip).length, m'⟩ ∧
      (∀ offset < ip, m'.declared offset = m.declared offset) ∧ Declares vs ip m' := by
  induction vs generalizing ip m with
  | nil =>
    refine ⟨m, Run.Reaches.refl _, fun _ _ => rfl, ?_⟩
    intro i v id hv
    simp at hv
  | cons v vs ih =>
    rw [renderVariables] at hreads hsmall ⊢
    rw [List.length_append] at hsmall ⊢
    obtain ⟨hle, hlt⟩ := definitionOffset_lt v ip
    obtain ⟨m1, hreached, hdeclared⟩ := reaches_render bits (m := m)
      (hadmitted v (by simp)) hreads.append_left (by omega)
    obtain ⟨m', hrest, hbelow, hlater⟩ := ih (m := m1)
      (fun other hother => hadmitted other (by simp [hother])) hreads.append_right (by omega)
    rw [← Nat.add_assoc]
    refine ⟨m', hreached.trans hrest, fun offset hoffset => ?_, ?_⟩
    · rw [hbelow offset (by omega), hdeclared, Function.update_of_ne (by omega)]
    · intro i w id hw hid
      cases i with
      | zero =>
        cases hw
        cases hid
        rw [hbelow _ hlt, hdeclared, Function.update_self]
      | succ i => exact hlater i w id hw hid

variable (bits) in
/-- The run of the preamble, after the table. -/
theorem runs_preamble {b : Board} (hadmitted : ∀ v ∈ b.globalVariables, v.Admitted)
    (hreads : Reads code b.tableSize (renderVariables b.globalVariables b.tableSize ++ [0]))
    (hsmall : b.preamble.length < 2 ^ 16) :
    ∃ ip m', Runner.Runs bits code ⟨b.tableSize, m⟩ (.ok ⟨ip, m'⟩) ∧
      Declares b.globalVariables b.tableSize m' := by
  have hlength : b.tableSize + (renderVariables b.globalVariables b.tableSize).length < 2 ^ 16 := by
    simp only [Board.preamble, List.length_append, List.length_replicate] at hsmall
    omega
  obtain ⟨m', hreached, -, hdeclares⟩ := reaches_variables bits (m := m) hadmitted
    hreads.append_left hlength
  have hend : Runner.step bits code
      ⟨b.tableSize + (renderVariables b.globalVariables b.tableSize).length, m'⟩ =
      .inr (.ok
        ⟨b.tableSize + (renderVariables b.globalVariables b.tableSize).length + 1, m'⟩) := by
    rw [Runner.step, loadInsn_of_reads hreads.append_right]
    rfl
  exact ⟨_, m', Run.Halts.of_reaches hreached (Run.Halts.of_step hend), hdeclares⟩

end OpenmrnCue.Automata
