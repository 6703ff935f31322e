import OpenmrnCue.Library.Lockstep
import OpenmrnCue.Logic.InstructionPointer
import OpenmrnCue.Logic.Runner
import OpenmrnCue.Logic.SoundRun

/-! The same code in different blocks.  Addresses tell the block, so calls, returns and errors do;
a jump is relative, and adds to the address.  Code that calls nothing, creates no exported variable
and jumps inside of its block does the same wherever it is loaded, and whatever is loaded beside
it. -/

namespace OpenmrnCue.Logic.VM

variable {W H : Type} {f : VariableFactory W H} {v w v' : VM W H}

/-! ### Where code lies -/

/-- Where the code of a machine lies: the blocks, the one that it executes, and the number of that
block. -/
structure Place where
  blocks : List Bytes
  block : Nat
  blockNum : UInt8

/-- The same machine with its code at another place, and another text in `error_`. -/
def relocate (vm : VM W H) (p : Place) (error : Option VMError) : VM W H :=
  { vm with blocks := p.blocks, ipBlockNum := p.block, blockNum := p.blockNum, error }

variable {p : Place}

/-- The code of the machine is also at the place `p`, and no call is open. -/
structure Fits (p : Place) (v : VM W H) : Prop where
  code : p.blocks.getD p.block [] = v.code
  short : v.code.length < 2 ^ 16
  here : v.ipBlockNum < v.blocks.length ∧ v.ipBlockNum < 2 ^ 16
  there : p.block < p.blocks.length ∧ p.block < 2 ^ 16
  single : v.callStack.length ≤ 1

/-- The second machine is the first one with its code at the place `p`. -/
def Alike (p : Place) (v w : VM W H) : Prop := Fits p v ∧ ∃ error, w = v.relocate p error

/-- Two rounds lead to alike machines, or end in the same way. -/
abbrev AlikeStep (p : Place) : Step W H → Step W H → Prop :=
  Sum.LiftRel (Alike p) fun r r' => r.1 = r'.1 ∧ Alike p r.2 r'.2

theorem Fits.of_eq (h : Fits p v) (hblocks : v'.blocks = v.blocks)
    (hblock : v'.ipBlockNum = v.ipBlockNum) (hcalls : v'.callStack = v.callStack) : Fits p v' := by
  have hcode : v'.code = v.code := by rw [VM.code, VM.code, hblocks, hblock]
  refine ⟨hcode ▸ h.code, hcode ▸ h.short, ?_, h.there, hcalls ▸ h.single⟩
  rw [hblock, hblocks]
  exact h.here

theorem Alike.rest (h : Alike p v w) : w.rest = v.rest := by
  obtain ⟨hfits, error, rfl⟩ := h
  exact congrArg (List.drop v.ip) hfits.code

theorem Alike.code (h : Alike p v w) : w.code = v.code := by
  obtain ⟨hfits, error, rfl⟩ := h
  exact hfits.code

/-! ### Operands -/

theorem Alike.fail (h : Alike p v w) (e e' : VMError) : AlikeStep p (v.fail e) (w.fail e') := by
  obtain ⟨hfits, error, rfl⟩ := h
  exact .inr ⟨rfl, hfits.of_eq rfl rfl rfl, some e', rfl⟩

theorem Alike.proceed (h : Alike p v w) : AlikeStep p v.proceed w.proceed := .inl h

theorem Alike.undefined (h : Alike p v w) : AlikeStep p v.undefined w.undefined := .inr ⟨rfl, h⟩

theorem Alike.move (h : Alike p v w) (ip : Nat) :
    Alike p ({ v with ip } : VM W H) { w with ip } := by
  obtain ⟨hfits, error, rfl⟩ := h
  exact ⟨hfits.of_eq rfl rfl rfl, error, rfl⟩

theorem Alike.withStack (h : Alike p v w) (operandStack : List Int32) :
    Alike p ({ v with operandStack } : VM W H) { w with operandStack } := by
  obtain ⟨hfits, error, rfl⟩ := h
  exact ⟨hfits.of_eq rfl rfl rfl, error, rfl⟩

theorem Alike.operandStack (h : Alike p v w) : w.operandStack = v.operandStack := by
  obtain ⟨-, error, rfl⟩ := h
  rfl

theorem Alike.push (h : Alike p v w) (value : Int32) : Alike p (v.push value) (w.push value) := by
  obtain ⟨hfits, error, rfl⟩ := h
  exact ⟨hfits.of_eq rfl rfl rfl, error, rfl⟩

theorem Alike.getVarint (h : Alike p v w) {k k' : Int32 → VM W H → Step W H}
    (hk : ∀ value v w, Alike p v w → AlikeStep p (k value v) (k' value w)) :
    AlikeStep p (v.getVarint k) (w.getVarint k') := by
  have hip : w.ip = v.ip := by obtain ⟨-, error, rfl⟩ := h; rfl
  unfold VM.getVarint
  rw [h.rest, h.code, hip]
  split
  · exact (h.move _).fail _ _
  · exact hk _ _ _ (h.move _)

theorem Alike.getFromStack (h : Alike p v w) {insn : OpCode} {name : String}
    {k k' : Int32 → VM W H → Step W H}
    (hk : ∀ value v w, Alike p v w → AlikeStep p (k value v) (k' value w)) :
    AlikeStep p (v.getFromStack insn name k) (w.getFromStack insn name k') := by
  unfold VM.getFromStack
  rw [h.operandStack]
  split
  · exact h.fail _ _
  · exact hk _ _ _ (h.withStack _)

theorem Alike.binary (h : Alike p v w) (insn : OpCode) (name : String)
    (op : Int32 → Int32 → Int32) : AlikeStep p (v.binary insn name op) (w.binary insn name op) :=
  h.getFromStack fun _ _ _ h => h.getFromStack fun _ _ _ h => (h.push _).proceed

theorem Alike.division (h : Alike p v w) (insn : OpCode) (op : Int32 → Int32 → Int32) :
    AlikeStep p (v.division insn op) (w.division insn op) := by
  refine h.getFromStack fun _ _ _ h => h.getFromStack fun _ _ _ h => ?_
  split
  · exact h.fail _ _
  · exact (h.push _).proceed

/-! ### Variables -/

theorem Alike.reportAccessError (h : Alike p v w) :
    Alike p v.reportAccessError w.reportAccessError := by
  obtain ⟨hfits, error, rfl⟩ := h
  exact ⟨hfits.of_eq rfl rfl rfl, some (.variableAccess (v.relocate p error).getIp), rfl⟩

theorem Alike.withWorld (h : Alike p v w) (world : W) :
    Alike p ({ v with world } : VM W H) { w with world } := by
  obtain ⟨hfits, error, rfl⟩ := h
  exact ⟨hfits.of_eq rfl rfl rfl, error, rfl⟩

theorem Alike.withExternals (h : Alike p v w)
    (externalVariables : UInt32 → Option (Variable H)) :
    Alike p ({ v with externalVariables } : VM W H) { w with externalVariables } := by
  obtain ⟨hfits, error, rfl⟩ := h
  exact ⟨hfits.of_eq rfl rfl rfl, error, rfl⟩

theorem Alike.externalVariables (h : Alike p v w) :
    w.externalVariables = v.externalVariables := by
  obtain ⟨-, error, rfl⟩ := h
  rfl

theorem Alike.world (h : Alike p v w) : w.world = v.world := by
  obtain ⟨-, error, rfl⟩ := h
  rfl

/-- Both read the same value. -/
theorem Alike.readVariable (h : Alike p v w) (ref : VMVariableReference) :
    Option.Rel (fun r r' => r.1 = r'.1 ∧ Alike p r.2 r'.2) (v.readVariable f ref)
      (w.readVariable f ref) := by
  unfold VM.readVariable
  cases ref.var with
  | operandStack =>
    dsimp only
    rw [h.operandStack]
    split
    · exact .some ⟨rfl, h.reportAccessError⟩
    · exact .some ⟨rfl, h⟩
  | external guid =>
    dsimp only
    rw [congrFun h.externalVariables guid]
    split
    · exact .none
    · exact .some ⟨rfl, h⟩
    · rw [h.world]
      refine .some ⟨rfl, ?_⟩
      dsimp only
      split
      · exact (h.withWorld _).reportAccessError
      · exact h.withWorld _

theorem Alike.writeVariable (h : Alike p v w) (ref : VMVariableReference) (value : Int32) :
    Option.Rel (Alike p) (v.writeVariable f ref value) (w.writeVariable f ref value) := by
  unfold VM.writeVariable
  cases ref.var with
  | operandStack =>
    dsimp only
    rw [congrArg List.length h.operandStack]
    split
    · exact .some h.reportAccessError
    · rw [h.operandStack]
      exact .some (h.withStack _)
  | external guid =>
    dsimp only
    rw [congrFun h.externalVariables guid]
    split
    · exact .none
    · rw [h.externalVariables]
      exact .some (h.withExternals _)
    · rw [h.world]
      refine .some ?_
      split
      · exact (h.withWorld _).reportAccessError
      · exact h.withWorld _

theorem Alike.reference (h : Alike p v w) (varidx : Int32) :
    w.reference? varidx = v.reference? varidx := by
  obtain ⟨-, error, rfl⟩ := h
  rfl

theorem Alike.accessError (h : Alike p v w) : w.accessError = v.accessError := by
  obtain ⟨-, error, rfl⟩ := h
  rfl

theorem Alike.fp (h : Alike p v w) : w.fp = v.fp := by
  obtain ⟨-, error, rfl⟩ := h
  rfl

theorem Alike.pushReference (h : Alike p v w) (ref : VMVariableReference) :
    Alike p (v.pushReference ref) (w.pushReference ref) := by
  obtain ⟨hfits, error, rfl⟩ := h
  exact ⟨hfits.of_eq rfl rfl rfl, error, rfl⟩

/-! ### Jumps -/

/-- A jump to an offset of 16 bits from the start of the block of the pointer. -/
theorem jump_inside (hhere : v.ipBlockNum < v.blocks.length) {ofs : Nat} (hofs : ofs < 2 ^ 16) :
    v.jump (v.ipBlockNum * 2 ^ 16 + ofs) =
      { v with ip := if ofs ≤ v.code.length then ofs else v.ip } := by
  split
  · next hlen => exact jump_eq v hhere hofs hlen
  · next hlen =>
    have hnot : ¬Reaches v.blocks (v.ipBlockNum * 2 ^ 16 + ofs) := by
      intro hreaches
      have hblock : (v.ipBlockNum * 2 ^ 16 + ofs) >>> blockCodeIpShift = v.ipBlockNum := by
        rw [Nat.shiftRight_eq_div_pow, blockCodeIpShift]
        omega
      have hoffset : (v.ipBlockNum * 2 ^ 16 + ofs) % 2 ^ blockCodeIpShift = ofs := by
        rw [blockCodeIpShift]
        omega
      rw [Reaches, hblock, hoffset] at hreaches
      exact hlen hreaches.2
    rw [VM.jump, jump?_of_not_reaches hnot]
    rfl

/-- The target of a jump by `r` that stays in the 64 KiB of the block. -/
theorem toUnsigned_getIp_add (hip : v.ip < 2 ^ 16) (hblock : v.ipBlockNum < 2 ^ 16) {r : Int}
    (hr : 0 ≤ v.ip + r ∧ v.ip + r < 2 ^ 16) :
    toUnsigned (v.getIp + r) = v.ipBlockNum * 2 ^ 16 + (v.ip + r).toNat := by
  rw [getIp_eq hip, toUnsigned]
  omega

theorem Alike.jump (h : Alike p v w) (hip : v.ip < 2 ^ 16) {r : Int}
    (hr : 0 ≤ v.ip + r ∧ v.ip + r < 2 ^ 16) :
    Alike p (v.jump (toUnsigned (v.getIp + r))) (w.jump (toUnsigned (w.getIp + r))) := by
  have hcode := h.code
  obtain ⟨hfits, error, rfl⟩ := h
  have hofs : (v.ip + r).toNat < 2 ^ 16 := by omega
  have hthere : (v.relocate p error).ipBlockNum < (v.relocate p error).blocks.length :=
    hfits.there.1
  have hsmall : (v.relocate p error).ipBlockNum < 2 ^ 16 := hfits.there.2
  rw [toUnsigned_getIp_add hip hfits.here.2 hr,
    toUnsigned_getIp_add (v := v.relocate p error) hip hsmall hr, jump_inside hfits.here.1 hofs]
  have hjump := jump_inside hthere hofs
  rw [hcode] at hjump
  refine ⟨hfits.of_eq rfl rfl rfl, error, hjump.trans rfl⟩

/-! ### Rounds -/

theorem Alike.parseString (h : Alike p v w) :
    AlikeStep p (v.parseString fun v => v.proceed) (w.parseString fun w => w.proceed) := by
  have hempty : Alike p ({ v with stringAcc := [] } : VM W H) { w with stringAcc := [] } := by
    obtain ⟨hfits, error, rfl⟩ := h
    exact ⟨hfits.of_eq rfl rfl rfl, error, rfl⟩
  refine hempty.getVarint fun len v w h => ?_
  split
  · exact h.undefined
  · rw [congrArg List.length h.rest]
    split
    · exact h.fail _ _
    · have hrest := h.rest
      obtain ⟨hfits, error, rfl⟩ := h
      rw [hrest]
      exact .inl ⟨hfits.of_eq rfl rfl rfl, error, rfl⟩

theorem Alike.testJump (h : Alike p v w) (insn : OpCode) (name : String) (takes : Int32 → Bool) :
    AlikeStep p (v.testJump insn name takes) (w.testJump insn name takes) := by
  refine h.getVarint fun r _ _ h => h.getFromStack fun arg v w h => ?_
  have hip : w.ip = v.ip := by obtain ⟨-, error, rfl⟩ := h; rfl
  split
  · dsimp only
    rw [hip]
    split
    · exact h.undefined
    · exact (h.move _).proceed
  · exact h.proceed

/-- An instruction that does not depend on the block. -/
theorem Alike.executeInsn (h : Alike p v w) {insn : OpCode}
    (hinsn : insn ∉ [.call, .createVar, .jump]) :
    AlikeStep p (v.executeInsn f insn) (w.executeInsn f insn) := by
  cases insn with
  | call | createVar | jump => simp at hinsn
  | terminate => exact .inr ⟨rfl, h⟩
  | nop => exact h.proceed
  | pushConstant0 | pushConstant1 => exact (h.push _).proceed
  | assignVar | assignVar0 | assignVar1 | numericInvert => exact h.fail _ _
  | pushConstant => exact h.getVarint fun value _ _ h => (h.push value).proceed
  | numericPlus | numericMinus | numericMul | boolEq | boolNeq | numericLeq | numericGeq
  | numericLt | numericGt | numericEq | numericNeq => exact h.binary _ _ _
  | numericDiv | numericMod => exact h.division _ _
  | boolNot | boolProject =>
    simp only [VM.executeInsn]
    exact h.getFromStack fun _ _ _ h => (h.push _).proceed
  | loadString => exact h.parseString
  | testJumpIfFalse | testJumpIfTrue => exact h.testJump _ _ _
  | printStr | ifPreamble =>
    obtain ⟨hfits, error, rfl⟩ := h
    exact .inl ⟨hfits.of_eq rfl rfl rfl, error, rfl⟩
  | printNum =>
    simp only [VM.executeInsn]
    refine h.getFromStack fun _ _ _ h => ?_
    obtain ⟨hfits, error, rfl⟩ := h
    exact .inl ⟨hfits.of_eq rfl rfl rfl, error, rfl⟩
  | createIndirectVar =>
    simp only [VM.executeInsn]
    refine h.getVarint fun _ _ _ h => ?_
    rw [h.fp]
    exact (h.pushReference _).proceed
  | enter =>
    simp only [VM.executeInsn]
    refine h.getVarint fun _ _ _ h => ?_
    rw [h.operandStack]
    split
    · exact h.undefined
    · exact (h.withStack _).proceed
  | leave =>
    simp only [VM.executeInsn]
    refine h.getVarint fun _ _ _ h => ?_
    rw [h.operandStack]
    split
    · exact h.fail _ _
    · split
      · exact h.fail _ _
      · exact (h.withStack _).proceed
  | checkStackLength =>
    simp only [VM.executeInsn]
    refine h.getVarint fun _ _ _ h => ?_
    rw [h.operandStack, h.fp]
    split
    · exact h.fail _ _
    · exact h.proceed
  | storeFpRel =>
    simp only [VM.executeInsn]
    refine h.getFromStack fun _ _ _ h => h.getVarint fun relofs v w h => ?_
    have hofs : toUnsigned (w.fp + relofs.toInt) = toUnsigned (v.fp + relofs.toInt) := by
      rw [h.fp]
    rw [h.operandStack, hofs]
    split
    · exact h.fail _ _
    · exact (h.withStack _).proceed
  | loadFpRel =>
    simp only [VM.executeInsn]
    refine h.getVarint fun _ _ _ h => ?_
    rw [h.operandStack, h.fp]
    split
    · exact h.fail _ _
    · exact (h.push _).proceed
  | indirectLoad =>
    simp only [VM.executeInsn]
    refine h.getFromStack fun varidx _ _ h => ?_
    rw [h.reference varidx]
    split
    · exact h.fail _ _
    · next ref _ =>
      have hread := h.readVariable (f := f) ref
      generalize VM.readVariable f _ ref = a at hread ⊢
      generalize VM.readVariable f _ ref = b at hread ⊢
      cases hread with
      | none => exact h.undefined
      | @some r r' hread =>
        obtain ⟨value, v'⟩ := r
        obtain ⟨value', w'⟩ := r'
        obtain ⟨rfl, hafter⟩ := hread
        dsimp only
        rw [hafter.accessError]
        split
        · exact .inr ⟨rfl, hafter⟩
        · exact (hafter.push _).proceed
  | indirectStore =>
    simp only [VM.executeInsn]
    refine h.getFromStack fun varidx _ _ h => h.getFromStack fun value _ _ h => ?_
    rw [h.reference varidx]
    split
    · exact h.fail _ _
    · next ref _ =>
      have hwrite := h.writeVariable (f := f) ref value
      generalize VM.writeVariable f _ ref value = a at hwrite ⊢
      generalize VM.writeVariable f _ ref value = b at hwrite ⊢
      cases hwrite with
      | none => exact h.undefined
      | some hafter =>
        dsimp only
        rw [hafter.accessError]
        split
        · exact .inr ⟨rfl, hafter⟩
        · exact hafter.proceed
  | pushTop =>
    simp only [VM.executeInsn]
    rw [h.operandStack]
    split
    · exact h.fail _ _
    · exact (h.push _).proceed
  | popOp =>
    simp only [VM.executeInsn]
    rw [h.operandStack]
    split
    · exact h.fail _ _
    · exact (h.withStack _).proceed
  | importVar =>
    simp only [VM.executeInsn]
    refine h.getFromStack fun _ _ _ h => h.getFromStack fun guid _ _ h => ?_
    rw [congrFun h.externalVariables guid.toUInt32]
    split
    · exact h.fail _ _
    · exact (h.pushReference _).proceed
  | createStaticVar =>
    simp only [VM.executeInsn]
    refine h.getVarint fun guid _ _ h => ?_
    rw [h.externalVariables]
    split
    · exact (((h.withExternals _).pushReference _).push _).proceed
    · exact ((h.pushReference _).push _).proceed
  | ret =>
    have hsingle : ∀ s ss frames, v.callStack ≠ s :: ss :: frames := by
      intro s ss frames hcalls
      have hlen := h.1.single
      rw [hcalls] at hlen
      simp at hlen
    have hcalls : w.callStack = v.callStack := by obtain ⟨-, error, rfl⟩ := h; rfl
    rw [executeInsn_ret_of_not hsingle, executeInsn_ret_of_not (hcalls ▸ hsingle)]
    exact h.fail _ _

/-- The next round neither calls a function nor creates an exported variable, and if it is a jump,
then it stays in the 64 KiB of the block. -/
def Local (vm : VM W H) : Prop :=
  ∀ b tail, vm.rest = b :: tail → OpCode.ofByte b ≠ some .call ∧
    OpCode.ofByte b ≠ some .createVar ∧ (OpCode.ofByte b = some .jump →
      ∀ r vm', ({ vm with ip := vm.ip + 1 } : VM W H).nextVarint = some (r, vm') →
        0 ≤ vm'.ip + r.toInt ∧ vm'.ip + r.toInt < 2 ^ 16)

/-- The offset behind a number is in the code. -/
theorem Alike.jumpInsn (h : Alike p v w) (hip : v.ip ≤ v.code.length)
    (hlocal : ∀ r v', v.nextVarint = some (r, v') →
      0 ≤ v'.ip + r.toInt ∧ v'.ip + r.toInt < 2 ^ 16) :
    AlikeStep p (v.executeInsn f .jump) (w.executeInsn f .jump) := by
  simp only [VM.executeInsn]
  cases hnext : v.nextVarint with
  | none =>
    have hnext' : w.nextVarint = none := by
      rw [nextVarint, h.rest]
      exact Option.map_eq_none_iff.mpr (Option.map_eq_none_iff.mp hnext)
    rw [getVarint_of_none hnext, getVarint_of_none hnext', h.code]
    exact (h.move _).fail _ _
  | some next =>
    obtain ⟨r, v'⟩ := next
    have hin := hlocal r v' hnext
    obtain ⟨⟨value, rest⟩, hparse, heq⟩ := Option.map_eq_some_iff.mp hnext
    cases heq
    have hnext' : w.nextVarint =
        some (r, { w with ip := v.ip + (v.rest.length - rest.length) }) := by
      have hip : w.ip = v.ip := by obtain ⟨-, error, rfl⟩ := h; rfl
      rw [nextVarint, h.rest, hparse, hip]
      rfl
    have hlen := length_parseVarint hparse
    have hshort := h.1.short
    rw [length_rest] at hlen
    rw [getVarint_of_some hnext, getVarint_of_some hnext']
    refine .inl ((h.move _).jump ?_ hin)
    change v.ip + (v.rest.length - rest.length) < 2 ^ 16
    rw [length_rest]
    omega

/-- A round of code that does not depend on the block. -/
theorem Alike.step (h : Alike p v w) (hlocal : v.Local) :
    AlikeStep p (VM.step f v) (VM.step f w) := by
  unfold VM.step
  rw [h.rest]
  split
  · exact .inr ⟨rfl, h⟩
  · next b tail hrest =>
    obtain ⟨hcall, hcreate, hjump⟩ := hlocal b tail hrest
    have hip : w.ip = v.ip := by obtain ⟨-, error, rfl⟩ := h; rfl
    dsimp only
    rw [hip]
    split
    · exact (h.move _).fail _ _
    · next insn hinsn =>
      rw [hinsn] at hcall hcreate hjump
      by_cases heq : insn = .jump
      · subst heq
        refine (h.move _).jumpInsn ?_ (hjump rfl)
        have hlen : (b :: tail).length = v.code.length - v.ip := hrest ▸ length_rest
        have hpos : 0 < (b :: tail).length := Nat.succ_pos _
        change v.ip + 1 ≤ v.code.length
        omega
      · refine (h.move _).executeInsn ?_
        simp only [List.mem_cons, List.not_mem_nil, or_false, not_or]
        exact ⟨fun h => hcall (congrArg some h), fun h => hcreate (congrArg some h), heq⟩

/-! ### Rounds of a block -/

/-- What remains of the execution of a block: how it ended, what it printed, the external variables
and the world.  A text in `error_` tells addresses, and is left out. -/
def observe (r : Verdict × VM W H) : Verdict × List Bytes × (UInt32 → Option (Variable H)) × W :=
  (r.1, r.2.output, r.2.externalVariables, r.2.world)

/-- The start of a round of the block. -/
def startBlock (vm : VM W H) (block : UInt8) : VM W H :=
  (vm.clear.setPreamble false).enterBlock block

/-- The same machine with no other code, which it has in the block 0. -/
def alone (vm : VM W H) (code : Bytes) : VM W H := { vm with blocks := [code] }

theorem alike_startBlock {block : UInt8} {code : Bytes} {vm : VM W H}
    (hpresent : block.toNat < vm.blocks.length) (hcode : vm.blocks.getD block.toNat [] = code)
    (hshort : code.length < 2 ^ 16) :
    Alike ⟨vm.blocks, block.toNat, block⟩ ((vm.alone code).startBlock 0) (vm.startBlock block) := by
  have hzero : (0 : UInt8).toNat < [code].length := Nat.zero_lt_one
  have hthere : (vm.alone code).startBlock 0 = _ :=
    enterBlock_eq ((vm.alone code).clear.setPreamble false) (b := 0) hzero
  have hhere : vm.startBlock block = _ := enterBlock_eq (vm.clear.setPreamble false) hpresent
  rw [hthere, hhere]
  refine ⟨⟨hcode, hshort, ⟨hzero, Nat.two_pow_pos 16⟩, ⟨hpresent, ?_⟩, Nat.le_refl 1⟩, vm.error,
    rfl⟩
  have := block.toNat_lt
  change block.toNat < 2 ^ 16
  omega

/-- Where every round that is executed depends on no block, the block does what its code does
alone. -/
theorem stepBlock_alone {block : UInt8} {code : Bytes} {vm : VM W H}
    (hpresent : block.toNat < vm.blocks.length) (hcode : vm.blocks.getD block.toNat [] = code)
    (hshort : code.length < 2 ^ 16)
    (hlocal : ∀ t, Run.Reaches (VM.step f) ((vm.alone code).startBlock 0) t → t.Local)
    (fuel : Nat) :
    (stepBlock f fuel vm block).map observe =
      (stepBlock f fuel (vm.alone code) 0).map observe := by
  have hrun := Run.lockstep_within (fun s t h hs => h.step (f := f) hs)
    (alike_startBlock hpresent hcode hshort) hlocal fuel
  change Option.map observe (Run.run (VM.step f) fuel (vm.startBlock block)) =
    Option.map observe (Run.run (VM.step f) fuel ((vm.alone code).startBlock 0))
  generalize Run.run (VM.step f) fuel ((vm.alone code).startBlock 0) = a at hrun ⊢
  generalize Run.run (VM.step f) fuel (vm.startBlock block) = b at hrun ⊢
  cases hrun with
  | none => rfl
  | @some r r' hend =>
    obtain ⟨verdict, v⟩ := r
    obtain ⟨verdict', v'⟩ := r'
    obtain ⟨rfl, -, error, rfl⟩ := hend
    rfl

end OpenmrnCue.Logic.VM
