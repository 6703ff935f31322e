import Mathlib.Data.List.GetD
import OpenmrnCue.Library.Trace
import OpenmrnCue.Logic.Execution

/-! Where a round takes the instruction pointer.  Jumps, taken conditional jumps, calls, returns and
string loads ask for a place in the code; only `VM::parse_string` looks whether it is there.  As
long as what they ask for is there, the pointer stays in the loaded code. -/

namespace OpenmrnCue.Logic

theorem length_parseVarintLoop {b : UInt8} {ret : BitVec 32} {ofs : Nat} {code rest : Bytes}
    {value : Int32} (h : parseVarintLoop b ret ofs code = some (value, rest)) :
    rest.length ≤ code.length := by
  induction code generalizing b ret ofs with
  | nil =>
    rw [parseVarintLoop.eq_def] at h
    split at h
    · cases h
      exact Nat.le_refl _
    · cases h
  | cons c code ih =>
    rw [parseVarintLoop.eq_def] at h
    split at h
    · cases h
      exact Nat.le_refl _
    · exact Nat.le_succ_of_le (ih h)

theorem length_parseVarint {code rest : Bytes} {value : Int32}
    (h : parseVarint code = some (value, rest)) : rest.length < code.length := by
  cases code with
  | nil => cases h
  | cons b code => exact Nat.lt_succ_of_le (length_parseVarintLoop h)

namespace VM

variable {W H : Type} {f : VariableFactory W H} {vm vm' : VM W H}

/-! ### The pointer in the code -/

/-- An address of a loaded block, or of its end. -/
def Reaches (blocks : List Bytes) (target : Nat) : Prop :=
  target >>> blockCodeIpShift < blocks.length ∧
    target % 2 ^ blockCodeIpShift ≤ (blocks.getD (target >>> blockCodeIpShift) []).length

instance (blocks : List Bytes) (target : Nat) : Decidable (Reaches blocks target) :=
  inferInstanceAs (Decidable (_ ∧ _))

theorem jump?_of_reaches {target : Nat} (h : Reaches vm.blocks target) :
    vm.jump? target = some { vm with
      ipBlockNum := target >>> blockCodeIpShift
      ip := target % 2 ^ blockCodeIpShift } := by
  unfold jump?
  rw [if_neg (by have := h.1; omega), if_neg (by have := h.2; omega)]

theorem jump?_of_not_reaches {target : Nat} (h : ¬ Reaches vm.blocks target) :
    vm.jump? target = none := by
  unfold jump?
  simp only
  split
  · rfl
  · next hblock =>
    rw [if_pos]
    by_contra hofs
    exact h ⟨by omega, by omega⟩

/-- The pointer is in a loaded block or at its end, and so are the addresses that calls have left
behind. -/
structure Inside (vm : VM W H) : Prop where
  block : vm.ipBlockNum < vm.blocks.length
  ip : vm.ip ≤ vm.code.length
  short : ∀ code ∈ vm.blocks, code.length < 2 ^ blockCodeIpShift
  frames : ∀ frame ∈ vm.callStack.dropLast, Reaches vm.blocks frame.returnAddress

theorem Inside.of_eq (h : vm.Inside) (hblocks : vm'.blocks = vm.blocks)
    (hblock : vm'.ipBlockNum = vm.ipBlockNum) (hip : vm'.ip = vm.ip)
    (hcalls : vm'.callStack = vm.callStack) : vm'.Inside := by
  refine ⟨?_, ?_, ?_, ?_⟩
  · rw [hblock, hblocks]
    exact h.block
  · rw [hip, code, hblocks, hblock]
    exact h.ip
  · rw [hblocks]
    exact h.short
  · rw [hcalls, hblocks]
    exact h.frames

theorem Inside.move (h : vm.Inside) {ip : Nat} (hip : ip ≤ vm.code.length) :
    ({ vm with ip } : VM W H).Inside := ⟨h.block, hip, h.short, h.frames⟩

theorem Inside.code_mem (h : vm.Inside) : vm.code ∈ vm.blocks := by
  rw [code, List.getD_eq_getElem _ _ h.block]
  exact List.getElem_mem h.block

/-- The pointer as an address. -/
theorem Inside.getIp (h : vm.Inside) : vm.getIp >>> blockCodeIpShift = vm.ipBlockNum ∧
    vm.getIp % 2 ^ blockCodeIpShift = vm.ip := by
  have hip : vm.ip < 2 ^ blockCodeIpShift := Nat.lt_of_le_of_lt h.ip (h.short _ h.code_mem)
  have hor : VM.getIp vm = 2 ^ blockCodeIpShift * vm.ipBlockNum + vm.ip := by
    rw [VM.getIp, Nat.shiftLeft_eq, Nat.mul_comm, Nat.two_pow_add_eq_or_of_lt hip]
  rw [hor, Nat.shiftRight_eq_div_pow]
  refine ⟨?_, ?_⟩
  · rw [Nat.mul_add_div (Nat.two_pow_pos _), Nat.div_eq_of_lt hip, Nat.add_zero]
  · rw [Nat.mul_add_mod, Nat.mod_eq_of_lt hip]

theorem Inside.reaches_getIp (h : vm.Inside) : Reaches vm.blocks vm.getIp := by
  rw [Reaches, h.getIp.1, h.getIp.2]
  exact ⟨h.block, h.ip⟩

/-- A jump to an address of the code. -/
theorem Inside.jump (h : vm.Inside) {target : Nat} (htarget : Reaches vm.blocks target) :
    (vm.jump target).Inside ∧ (vm.jump target).blocks = vm.blocks ∧
      (vm.jump target).ipBlockNum = target >>> blockCodeIpShift ∧
      (vm.jump target).ip = target % 2 ^ blockCodeIpShift := by
  rw [VM.jump, jump?_of_reaches htarget]
  exact ⟨⟨htarget.1, htarget.2, h.short, h.frames⟩, rfl, rfl, rfl⟩

theorem Inside.withCalls (h : vm'.Inside) (hblocks : vm'.blocks = vm.blocks)
    {calls : List ExecutionEnvironment}
    (hframes : ∀ frame ∈ calls.dropLast, Reaches vm.blocks frame.returnAddress) (fp : Nat) :
    ({ vm' with callStack := calls, fp } : VM W H).Inside := by
  refine ⟨h.block, h.ip, h.short, fun frame hframe => ?_⟩
  simp only [hblocks]
  exact hframes frame hframe

/-! ### Instructions that do not ask for a place -/

/-- The machine behind a round is inside. -/
def StepInside : Step W H → Prop
  | .inl vm => vm.Inside
  | .inr (_, vm) => vm.Inside

theorem Inside.fail (h : vm.Inside) (e : VMError) : StepInside (vm.fail e) :=
  h.of_eq rfl rfl rfl rfl

theorem Inside.proceed (h : vm.Inside) : StepInside vm.proceed := h

theorem Inside.push (h : vm.Inside) (value : Int32) : (vm.push value).Inside :=
  h.of_eq rfl rfl rfl rfl

theorem Inside.getVarint (h : vm.Inside) {k : Int32 → VM W H → Step W H}
    (hk : ∀ value vm, vm.Inside → StepInside (k value vm)) : StepInside (vm.getVarint k) := by
  unfold VM.getVarint
  split
  · exact (h.move (Nat.le_refl _)).fail _
  · next value rest hparse =>
    have hlen := length_parseVarint hparse
    refine hk _ _ (h.move ?_)
    have hip := h.ip
    rw [length_rest] at hlen ⊢
    omega

theorem Inside.getFromStack (h : vm.Inside) {insn : OpCode} {name : String}
    {k : Int32 → VM W H → Step W H} (hk : ∀ value vm, vm.Inside → StepInside (k value vm)) :
    StepInside (vm.getFromStack insn name k) := by
  unfold VM.getFromStack
  split
  · exact h.fail _
  · exact hk _ _ (h.of_eq rfl rfl rfl rfl)

theorem Inside.binary (h : vm.Inside) (insn : OpCode) (name : String)
    (op : Int32 → Int32 → Int32) : StepInside (vm.binary insn name op) :=
  h.getFromStack fun _ _ h => h.getFromStack fun _ _ h => h.push _

theorem Inside.division (h : vm.Inside) (insn : OpCode) (op : Int32 → Int32 → Int32) :
    StepInside (vm.division insn op) := by
  refine h.getFromStack fun _ _ h => h.getFromStack fun _ _ h => ?_
  split
  · exact h.fail _
  · exact h.push _

theorem Inside.readVariable (h : vm.Inside) {ref : VMVariableReference} {value : Int32}
    (hread : vm.readVariable f ref = some (value, vm')) : vm'.Inside := by
  unfold VM.readVariable at hread
  split at hread
  · split at hread
    · cases hread
      exact h.of_eq rfl rfl rfl rfl
    · cases hread
      exact h
  · split at hread
    · cases hread
    · cases hread
      exact h
    · cases hread
      split
      · exact h.of_eq rfl rfl rfl rfl
      · exact h.of_eq rfl rfl rfl rfl

theorem Inside.writeVariable (h : vm.Inside) {ref : VMVariableReference} {value : Int32}
    (hwrite : vm.writeVariable f ref value = some vm') : vm'.Inside := by
  unfold VM.writeVariable at hwrite
  split at hwrite
  · split at hwrite
    · cases hwrite
      exact h.of_eq rfl rfl rfl rfl
    · cases hwrite
      exact h.of_eq rfl rfl rfl rfl
  · split at hwrite
    · cases hwrite
    · cases hwrite
      exact h.of_eq rfl rfl rfl rfl
    · cases hwrite
      split
      · exact h.of_eq rfl rfl rfl rfl
      · exact h.of_eq rfl rfl rfl rfl

/-! ### What a round asks for -/

/-- A place that an instruction asks for: an address, an offset in the block, or as many bytes from
an offset on. -/
inductive Request where
  | address (target : Nat)
  | near (offset : Int)
  | text (start : Nat) (length : Int)
  deriving DecidableEq, Repr

/-- The number at the pointer, and the machine behind it. -/
def nextVarint (vm : VM W H) : Option (Int32 × VM W H) :=
  (parseVarint vm.rest).map fun (value, rest) =>
    (value, { vm with ip := vm.ip + (vm.rest.length - rest.length) })

theorem getVarint_of_none (h : vm.nextVarint = none) (k : Int32 → VM W H → Step W H) :
    vm.getVarint k = ({ vm with ip := vm.code.length } : VM W H).fail
      (.unexpectedEof "parsing varint") := by
  rw [getVarint, Option.map_eq_none_iff.mp h]

theorem getVarint_of_some {value : Int32} (h : vm.nextVarint = some (value, vm'))
    (k : Int32 → VM W H → Step W H) : vm.getVarint k = k value vm' := by
  obtain ⟨⟨value', rest⟩, hparse, heq⟩ := Option.map_eq_some_iff.mp h
  cases heq
  rw [getVarint, hparse]

theorem Inside.nextVarint (h : vm.Inside) {value : Int32}
    (hnext : vm.nextVarint = some (value, vm')) : vm'.Inside := by
  obtain ⟨⟨value', rest⟩, hparse, heq⟩ := Option.map_eq_some_iff.mp hnext
  cases heq
  have hlen := length_parseVarint hparse
  have hip := h.ip
  refine h.move ?_
  rw [length_rest] at hlen ⊢
  omega

/-- The offset that a conditional jump asks for, if it is taken. -/
def requestedIf (vm : VM W H) (takes : Int32 → Bool) : Option Request :=
  vm.nextVarint.bind fun (r, vm) => vm.operandStack.getLast?.bind fun arg =>
    if takes arg then some (.near (vm.ip + r.toInt)) else none

/-- What an instruction asks for, with the pointer after its opcode. -/
def requestedBy (vm : VM W H) : OpCode → Option Request
  | .jump => vm.nextVarint.map fun (r, vm) => .address (toUnsigned (vm.getIp + r.toInt))
  | .call =>
    match vm.callStack with
    | [] => none
    | top :: _ =>
      if vm.fp ≠ top.fp then none
      else vm.operandStack.getLast?.bind fun dst =>
        ({ vm with operandStack := vm.operandStack.dropLast } : VM W H).nextVarint.map fun _ =>
          .address dst.toUInt32.toNat
  | .ret =>
    match vm.callStack with
    | s :: _ :: _ => some (.address s.returnAddress)
    | _ => none
  | .testJumpIfFalse => vm.requestedIf (· == 0)
  | .testJumpIfTrue => vm.requestedIf (· != 0)
  | .loadString => ({ vm with stringAcc := [] } : VM W H).nextVarint.map fun (len, vm) =>
    .text vm.ip len.toInt
  | _ => none

/-- What the next round asks for. -/
def requested (vm : VM W H) : Option Request :=
  match vm.rest with
  | [] => none
  | b :: _ =>
    (OpCode.ofByte b).bind fun insn => ({ vm with ip := vm.ip + 1 } : VM W H).requestedBy insn

/-- The pointer stands where it was asked for, in the loaded code. -/
def Request.Reached (vm : VM W H) : Request → VM W H → Prop
  | .address target, vm' => Reaches vm.blocks target ∧
      vm'.ipBlockNum = target >>> blockCodeIpShift ∧ vm'.ip = target % 2 ^ blockCodeIpShift
  | .near offset, vm' => 0 ≤ offset ∧ offset ≤ vm.code.length ∧ vm'.ipBlockNum = vm.ipBlockNum ∧
      vm'.ip = offset
  | .text start length, vm' => 0 ≤ length ∧ start + length ≤ vm.code.length ∧
      vm'.ipBlockNum = vm.ipBlockNum ∧ vm'.ip = start + length

/-- What the code does not look at holds of what it is asked for. -/
def Request.Admitted (vm : VM W H) : Request → Prop
  | .address target => Reaches vm.blocks target
  | .near offset => 0 ≤ offset ∧ offset ≤ vm.code.length
  | .text _ length => 0 ≤ length

/-- A round whose end is noticed: it goes to the place that it asks for, in the loaded code, or
comes back with an error; if it asks for none, the pointer stays in the loaded code. -/
def Noticed (vm : VM W H) (requested : Option Request) : Step W H → Prop
  | .inl vm' => vm'.Inside ∧ ∀ request, requested = some request → request.Reached vm vm'
  | .inr (.exception, _) => True
  | .inr (_, vm') => vm'.Inside ∧ requested = none

/-- An instruction that asks for no place. -/
theorem Inside.executeInsn (h : vm.Inside) {insn : OpCode}
    (hinsn : insn ∉ [.jump, .call, .ret, .testJumpIfFalse, .testJumpIfTrue, .loadString]) :
    StepInside (vm.executeInsn f insn) := by
  cases insn with
  | terminate | nop | printStr | ifPreamble | pushConstant0 | pushConstant1 =>
    exact h.of_eq rfl rfl rfl rfl
  | assignVar | assignVar0 | assignVar1 | numericInvert => exact h.fail _
  | pushConstant => exact h.getVarint fun value _ h => (h.push value).proceed
  | numericPlus | numericMinus | numericMul | boolEq | boolNeq | numericLeq | numericGeq
  | numericLt | numericGt | numericEq | numericNeq => exact h.binary _ _ _
  | numericDiv | numericMod => exact h.division _ _
  | boolNot | boolProject => exact h.getFromStack fun _ _ h => (h.push _).proceed
  | jump | call | ret | testJumpIfFalse | testJumpIfTrue | loadString => simp at hinsn
  | printNum =>
    rw [VM.executeInsn]
    refine h.getFromStack fun _ _ h => Inside.proceed ?_
    exact h.of_eq rfl rfl rfl rfl
  | createIndirectVar =>
    rw [VM.executeInsn]
    refine h.getVarint fun _ _ h => Inside.proceed ?_
    exact h.of_eq rfl rfl rfl rfl
  | enter =>
    rw [VM.executeInsn]
    refine h.getVarint fun _ _ h => ?_
    simp only
    split
    · exact h
    · exact h.of_eq rfl rfl rfl rfl
  | leave =>
    rw [VM.executeInsn]
    refine h.getVarint fun _ _ h => ?_
    split
    · exact h.fail _
    · split
      · exact h.fail _
      · exact h.of_eq rfl rfl rfl rfl
  | checkStackLength =>
    rw [VM.executeInsn]
    refine h.getVarint fun _ _ h => ?_
    split
    · exact h.fail _
    · exact h
  | storeFpRel =>
    rw [VM.executeInsn]
    refine h.getFromStack fun _ _ h => h.getVarint fun _ _ h => ?_
    simp only
    split
    · exact h.fail _
    · exact h.of_eq rfl rfl rfl rfl
  | loadFpRel =>
    rw [VM.executeInsn]
    refine h.getVarint fun _ _ h => ?_
    split
    · exact h.fail _
    · exact h.push _
  | indirectLoad =>
    rw [VM.executeInsn]
    refine h.getFromStack fun _ _ h => ?_
    split
    · exact h.fail _
    · split
      · exact h
      · next hread =>
        have h := h.readVariable hread
        split
        · exact h
        · exact h.push _
  | indirectStore =>
    rw [VM.executeInsn]
    refine h.getFromStack fun _ _ h => h.getFromStack fun _ _ h => ?_
    split
    · exact h.fail _
    · split
      · exact h
      · next hwrite =>
        have h := h.writeVariable hwrite
        split
        · exact h
        · exact h
  | pushTop =>
    simp only [VM.executeInsn]
    split
    · exact h.fail _
    · exact h.push _
  | popOp =>
    simp only [VM.executeInsn]
    split
    · exact h.fail _
    · exact h.of_eq rfl rfl rfl rfl
  | createVar =>
    rw [VM.executeInsn]
    refine h.getVarint fun _ _ h => h.getVarint fun _ _ h => ?_
    split
    · exact h.of_eq rfl rfl rfl rfl
    · exact h.of_eq rfl rfl rfl rfl
  | importVar =>
    rw [VM.executeInsn]
    refine h.getFromStack fun _ _ h => h.getFromStack fun _ _ h => ?_
    split
    · exact h.fail _
    · exact h.of_eq rfl rfl rfl rfl
  | createStaticVar =>
    rw [VM.executeInsn]
    refine h.getVarint fun _ _ h => ?_
    simp only
    split
    · exact h.of_eq rfl rfl rfl rfl
    · exact h.of_eq rfl rfl rfl rfl

/-! ### The instructions that ask for a place -/

/-- The round of an instruction, noticed or not: it is noticed exactly if what it asks for is
admitted, and then the machine behind it is inside. -/
def Judged (vm : VM W H) (requested : Option Request) (step : Step W H) : Prop :=
  (Noticed vm requested step ↔ ∀ request, requested = some request → request.Admitted vm) ∧
    ((∀ request, requested = some request → request.Admitted vm) → StepInside step)

/-- An instruction that asks for no place, or has come back with an error before. -/
theorem judged_of_inside {step : Step W H} (h : StepInside step) : Judged vm none step := by
  refine ⟨⟨fun _ => nofun, fun _ => ?_⟩, fun _ => h⟩
  rcases step with vm' | ⟨verdict, vm'⟩
  · exact ⟨h, nofun⟩
  · cases verdict with
    | exception => trivial
    | success | undefined => exact ⟨h, rfl⟩

theorem judged_of_fail (h : vm'.Inside) (e : VMError) : Judged vm none (vm'.fail e) :=
  judged_of_inside (h.fail e)

/-- A jump with an unchecked result. -/
theorem judged_jump (h : vm'.Inside) (hblocks : vm'.blocks = vm.blocks) {target : Nat} :
    Judged vm (some (.address target)) (vm'.jump target).proceed := by
  have hsome : (∀ request, some (Request.address target) = some request → request.Admitted vm) ↔
      Reaches vm.blocks target :=
    ⟨fun h => h _ rfl, fun h _ heq => Option.some.inj heq ▸ h⟩
  rw [Judged, hsome]
  constructor
  · constructor
    · rintro ⟨-, hreached⟩
      exact (hreached _ rfl).1
    · intro htarget
      obtain ⟨hinside, -, hblock, hip⟩ := h.jump (hblocks ▸ htarget)
      refine ⟨hinside, fun _ heq => ?_⟩
      cases heq
      exact ⟨htarget, hblock, hip⟩
  · intro htarget
    exact (h.jump (hblocks ▸ htarget)).1

theorem nextVarint_same {value : Int32} (h : vm.nextVarint = some (value, vm')) :
    vm'.blocks = vm.blocks ∧ vm'.ipBlockNum = vm.ipBlockNum ∧ vm'.callStack = vm.callStack ∧
      vm'.operandStack = vm.operandStack ∧ vm'.fp = vm.fp := by
  obtain ⟨⟨value', rest⟩, -, heq⟩ := Option.map_eq_some_iff.mp h
  cases heq
  exact ⟨rfl, rfl, rfl, rfl, rfl⟩

/-- A conditional jump, which moves the pointer without a check. -/
theorem Inside.judged_testJump (h : vm.Inside) (insn : OpCode) (name : String)
    (takes : Int32 → Bool) :
    Judged vm (vm.requestedIf takes) (vm.testJump insn name takes) := by
  rw [requestedIf, testJump]
  cases hnext : vm.nextVarint with
  | none =>
    rw [getVarint_of_none hnext]
    exact judged_of_fail (h.move (Nat.le_refl _)) _
  | some p =>
    obtain ⟨r, vm₁⟩ := p
    obtain ⟨hblocks, hblock, -, -, -⟩ := nextVarint_same hnext
    have h₁ := h.nextVarint hnext
    rw [getVarint_of_some hnext, Option.bind_some, VM.getFromStack]
    simp only
    cases hlast : vm₁.operandStack.getLast? with
    | none => exact judged_of_fail h₁ _
    | some arg =>
      have h₂ : ({ vm₁ with operandStack := vm₁.operandStack.dropLast } : VM W H).Inside :=
        h₁.of_eq rfl rfl rfl rfl
      simp only [Option.bind_some]
      cases htakes : takes arg with
      | false => exact judged_of_inside h₂
      | true =>
        have hsome : (∀ request, some (Request.near (vm₁.ip + r.toInt)) = some request →
            request.Admitted vm) ↔ 0 ≤ vm₁.ip + r.toInt ∧ vm₁.ip + r.toInt ≤ vm.code.length :=
          ⟨fun h => h _ rfl, fun h _ heq => Option.some.inj heq ▸ h⟩
        rw [Judged, if_pos rfl, if_pos rfl, hsome]
        split
        · next hneg =>
          refine ⟨⟨fun hnoticed => absurd hnoticed.2 (by simp), fun hin => by omega⟩,
            fun hin => by omega⟩
        · next hpos =>
          have hcode : vm₁.code = vm.code := by rw [code, code, hblocks, hblock]
          have hmove : 0 ≤ vm₁.ip + r.toInt ∧ vm₁.ip + r.toInt ≤ vm.code.length →
              ({ vm₁ with
                operandStack := vm₁.operandStack.dropLast
                ip := (vm₁.ip + r.toInt).toNat } : VM W H).Inside := by
            intro hin
            refine h₂.move (show _ ≤ vm₁.code.length from ?_)
            rw [hcode]
            omega
          refine ⟨⟨fun hnoticed => ?_, fun hin => ⟨hmove hin, fun _ heq => ?_⟩⟩, hmove⟩
          · obtain ⟨hlow, hhigh, -, -⟩ := hnoticed.2 _ rfl
            exact ⟨hlow, hhigh⟩
          · cases heq
            exact ⟨hin.1, hin.2, hblock, Int.toNat_of_nonneg hin.1⟩

/-- A string load, which looks for the end of the code, but not for a negative length. -/
theorem Inside.judged_parseString (h : vm.Inside) :
    Judged vm (({ vm with stringAcc := [] } : VM W H).nextVarint.map fun (len, vm) =>
      .text vm.ip len.toInt) (vm.parseString fun vm => vm.proceed) := by
  have h₀ : ({ vm with stringAcc := [] } : VM W H).Inside := h.of_eq rfl rfl rfl rfl
  rw [parseString]
  cases hnext : ({ vm with stringAcc := [] } : VM W H).nextVarint with
  | none =>
    rw [getVarint_of_none hnext]
    exact judged_of_fail (h₀.move (Nat.le_refl _)) _
  | some p =>
    obtain ⟨len, vm₁⟩ := p
    obtain ⟨hblocks, hblock, -, -, -⟩ := nextVarint_same hnext
    have h₁ := h₀.nextVarint hnext
    have hcode : vm₁.code = vm.code := by rw [code, code, hblocks, hblock]
    have hsome : (∀ request, some (Request.text vm₁.ip len.toInt) = some request →
        request.Admitted vm) ↔ 0 ≤ len.toInt :=
      ⟨fun h => h _ rfl, fun h _ heq => Option.some.inj heq ▸ h⟩
    have hlt : len < 0 ↔ len.toInt < 0 := Int32.lt_iff_toInt_lt
    rw [getVarint_of_some hnext, Option.map_some]
    simp only
    rw [Judged, hsome]
    by_cases hneg : len < 0
    · rw [if_pos hneg]
      have hneg := hlt.mp hneg
      exact ⟨⟨fun hnoticed => absurd hnoticed.2 (by simp), fun hin => by omega⟩,
        fun hin => by omega⟩
    · rw [if_neg hneg]
      have hpos : 0 ≤ len.toInt := by
        have := mt hlt.mpr hneg
        omega
      split
      · exact ⟨⟨fun _ => hpos, fun _ => trivial⟩, fun _ => h₁.fail _⟩
      · next hroom =>
        have hend : vm₁.ip + len.toInt.toNat ≤ vm₁.code.length := by
          have hip := h₁.ip
          rw [length_rest] at hroom
          omega
        have hmove : ({ vm₁ with
            stringAcc := vm₁.rest.take len.toInt.toNat
            ip := vm₁.ip + len.toInt.toNat } : VM W H).Inside :=
          (h₁.move hend).of_eq rfl rfl rfl rfl
        refine ⟨⟨fun _ => hpos, fun _ => ⟨hmove, fun _ heq => ?_⟩⟩, fun _ => hmove⟩
        cases heq
        rw [hcode] at hend
        refine ⟨hpos, by omega, hblock, ?_⟩
        rw [Int.natCast_add, Int.toNat_of_nonneg hpos]

/-- A jump. -/
theorem Inside.judged_jump (h : vm.Inside) :
    Judged vm (vm.requestedBy .jump) (vm.executeInsn f .jump) := by
  simp only [requestedBy, VM.executeInsn]
  cases hnext : vm.nextVarint with
  | none =>
    rw [getVarint_of_none hnext]
    exact judged_of_fail (h.move (Nat.le_refl _)) _
  | some p =>
    obtain ⟨r, vm₁⟩ := p
    rw [getVarint_of_some hnext, Option.map_some]
    exact VM.judged_jump (h.nextVarint hnext) (nextVarint_same hnext).1

theorem requestedBy_call_nil (hcalls : vm.callStack = []) : vm.requestedBy .call = none := by
  rw [requestedBy]
  split
  · rfl
  · next heq => exact absurd (heq.symm.trans hcalls) (by simp)

theorem executeInsn_call_nil (hcalls : vm.callStack = []) :
    vm.executeInsn f .call = vm.fail .callUnderflow := by
  rw [VM.executeInsn]
  split
  · rfl
  · next heq => exact absurd (heq.symm.trans hcalls) (by simp)

section

variable {top : ExecutionEnvironment} {frames : List ExecutionEnvironment}

theorem requestedBy_call_cons (hcalls : vm.callStack = top :: frames) :
    vm.requestedBy .call = if vm.fp ≠ top.fp then none
      else vm.operandStack.getLast?.bind fun dst =>
        ({ vm with operandStack := vm.operandStack.dropLast } : VM W H).nextVarint.map fun _ =>
          .address dst.toUInt32.toNat := by
  rw [requestedBy]
  split
  · next heq => exact absurd (heq.symm.trans hcalls) (by simp)
  · next top' frames' heq =>
    obtain ⟨rfl, rfl⟩ := List.cons.inj (heq.symm.trans hcalls)
    rfl

/-- The call with a frame on the stack. -/
theorem executeInsn_call_cons (hcalls : vm.callStack = top :: frames) :
    vm.executeInsn f .call = if vm.fp ≠ top.fp then vm.fail (.callFp top.fp vm.fp)
      else vm.getFromStack .call "" fun dst vm => vm.getVarint fun numArg vm =>
        ({ vm with
          callStack := ⟨toUnsigned (vm.operandStack.length - numArg.toInt),
            vm.variableStack.length, vm.getIp⟩ :: vm.callStack
          fp := toUnsigned (vm.operandStack.length - numArg.toInt) }.jump
            dst.toUInt32.toNat).proceed := by
  rw [VM.executeInsn]
  split
  · next heq => exact absurd (heq.symm.trans hcalls) (by simp)
  · next top' frames' heq =>
    obtain ⟨rfl, rfl⟩ := List.cons.inj (heq.symm.trans hcalls)
    rfl

/-- The frames behind a call, which leaves the address of the instruction behind it. -/
theorem Inside.frames_call (h : vm.Inside) (hcalls : vm.callStack = top :: frames)
    {frame : ExecutionEnvironment} (hframe : frame.returnAddress = vm.getIp) :
    ∀ s ∈ (frame :: vm.callStack).dropLast, Reaches vm.blocks s.returnAddress := by
  intro s hs
  rw [hcalls, List.dropLast_cons_cons] at hs
  rcases List.mem_cons.mp hs with rfl | hs
  · rw [hframe]
    exact h.reaches_getIp
  · exact h.frames s (hcalls ▸ hs)

end

/-- A call. -/
theorem Inside.judged_call (h : vm.Inside) :
    Judged vm (vm.requestedBy .call) (vm.executeInsn f .call) := by
  obtain hcalls | ⟨top, frames, hcalls⟩ :
      vm.callStack = [] ∨ ∃ top frames, vm.callStack = top :: frames := by
    rcases vm.callStack with _ | ⟨top, frames⟩
    · exact .inl rfl
    · exact .inr ⟨top, frames, rfl⟩
  · rw [requestedBy_call_nil hcalls, executeInsn_call_nil hcalls]
    exact judged_of_fail h _
  · rw [requestedBy_call_cons hcalls, executeInsn_call_cons hcalls]
    by_cases hfp : vm.fp ≠ top.fp
    · rw [if_pos hfp, if_pos hfp]
      exact judged_of_fail h _
    · rw [if_neg hfp, if_neg hfp, VM.getFromStack]
      cases hlast : vm.operandStack.getLast? with
      | none => exact judged_of_fail h _
      | some dst =>
        have h₀ : ({ vm with operandStack := vm.operandStack.dropLast } : VM W H).Inside :=
          h.of_eq rfl rfl rfl rfl
        simp only [Option.bind_some]
        cases hnext :
            ({ vm with operandStack := vm.operandStack.dropLast } : VM W H).nextVarint with
        | none =>
          rw [getVarint_of_none hnext]
          exact judged_of_fail (h₀.move (Nat.le_refl _)) _
        | some p =>
          obtain ⟨numArg, vm₁⟩ := p
          obtain ⟨hblocks, -, hcalls₁, -, -⟩ := nextVarint_same hnext
          have h₁ := h₀.nextVarint hnext
          rw [getVarint_of_some hnext, Option.map_some]
          exact VM.judged_jump (h₁.withCalls rfl (h₁.frames_call (hcalls₁.trans hcalls) rfl) _)
            (show vm₁.blocks = vm.blocks from hblocks)

theorem requestedBy_ret_of_not (hcalls : ∀ s ss frames, vm.callStack ≠ s :: ss :: frames) :
    vm.requestedBy .ret = none := by
  rw [requestedBy]
  split
  · next s ss frames heq => exact absurd heq (hcalls s ss frames)
  · rfl

theorem executeInsn_ret_of_not (hcalls : ∀ s ss frames, vm.callStack ≠ s :: ss :: frames) :
    vm.executeInsn f .ret = vm.fail .retUnderflow := by
  rw [VM.executeInsn]
  split
  · next s ss frames heq => exact absurd heq (hcalls s ss frames)
  · rfl

section

variable {s ss : ExecutionEnvironment} {frames : List ExecutionEnvironment}

theorem requestedBy_ret_cons (hcalls : vm.callStack = s :: ss :: frames) :
    vm.requestedBy .ret = some (.address s.returnAddress) := by
  rw [requestedBy]
  split
  · next s' ss' frames' heq =>
    obtain ⟨rfl, -⟩ := List.cons.inj (heq.symm.trans hcalls)
    rfl
  · next hother => exact absurd hcalls (hother s ss frames)

/-- The return to the frame below. -/
theorem executeInsn_ret_cons (hcalls : vm.callStack = s :: ss :: frames) :
    vm.executeInsn f .ret = ({ ({ vm with
        variableStack := vm.variableStack.take s.vp
        operandStack := vm.operandStack.takeD s.fp 0 } : VM W H).jump s.returnAddress with
      callStack := ss :: frames
      fp := ss.fp } : VM W H).proceed := by
  rw [VM.executeInsn]
  split
  · next s' ss' frames' heq =>
    obtain ⟨rfl, hrest⟩ := List.cons.inj (heq.symm.trans hcalls)
    obtain ⟨rfl, rfl⟩ := List.cons.inj hrest
    rfl
  · next hother => exact absurd hcalls (hother s ss frames)

end

/-- A return, which goes back to where a call has come from. -/
theorem Inside.judged_ret (h : vm.Inside) :
    Judged vm (vm.requestedBy .ret) (vm.executeInsn f .ret) := by
  by_cases hcalls : ∃ s ss frames, vm.callStack = s :: ss :: frames
  · obtain ⟨s, ss, frames, hcalls⟩ := hcalls
    rw [requestedBy_ret_cons hcalls, executeInsn_ret_cons hcalls]
    have hreturn : Reaches vm.blocks s.returnAddress := h.frames s (by simp [hcalls])
    have hframes : ∀ frame ∈ (ss :: frames).dropLast, Reaches vm.blocks frame.returnAddress := by
      intro frame hframe
      refine h.frames frame ?_
      rw [hcalls, List.dropLast_cons_cons]
      exact List.mem_cons_of_mem s hframe
    have hdropped : ({ vm with
        variableStack := vm.variableStack.take s.vp
        operandStack := vm.operandStack.takeD s.fp 0 } : VM W H).Inside :=
      h.of_eq rfl rfl rfl rfl
    obtain ⟨hjump, hblocks, hblock, hip⟩ := hdropped.jump hreturn
    have hinside := hjump.withCalls hblocks hframes ss.fp
    refine ⟨⟨fun _ _ heq => ?_, fun _ => ⟨hinside, fun _ heq => ?_⟩⟩, fun _ => hinside⟩
    · cases heq
      exact hreturn
    · cases heq
      exact ⟨hreturn, hblock, hip⟩
  · have hnot : ∀ s ss frames, vm.callStack ≠ s :: ss :: frames :=
      fun s ss frames heq => hcalls ⟨s, ss, frames, heq⟩
    rw [requestedBy_ret_of_not hnot, executeInsn_ret_of_not hnot]
    exact judged_of_fail h _

/-- One round. -/
theorem Inside.judged_step (h : vm.Inside) : Judged vm vm.requested (step f vm) := by
  rw [requested, step]
  cases hrest : vm.rest with
  | nil => exact judged_of_inside h
  | cons b tail =>
    have hpast : ({ vm with ip := vm.ip + 1 } : VM W H).Inside := by
      refine h.move ?_
      have hlen := congrArg List.length hrest
      have hip := h.ip
      rw [length_rest, List.length_cons] at hlen
      omega
    simp only
    cases hinsn : OpCode.ofByte b with
    | none => exact judged_of_fail hpast _
    | some insn =>
      rw [Option.bind_some]
      simp only
      by_cases hmoves : insn ∈ [.jump, .call, .ret, .testJumpIfFalse, .testJumpIfTrue, .loadString]
      · simp only [List.mem_cons, List.not_mem_nil, or_false] at hmoves
        rcases hmoves with rfl | rfl | rfl | rfl | rfl | rfl
        · exact hpast.judged_jump
        · exact hpast.judged_call
        · exact hpast.judged_ret
        · exact hpast.judged_testJump _ _ _
        · exact hpast.judged_testJump _ _ _
        · exact hpast.judged_parseString
      · have hnone : ({ vm with ip := vm.ip + 1 } : VM W H).requestedBy insn = none := by
          cases insn <;> first | rfl | simp at hmoves
        rw [hnone]
        exact judged_of_inside (hpast.executeInsn hmoves)

/-! ### Histories -/

/-- What moves the machine on: a round, or `VM::execute_block`. -/
inductive Act where
  | round
  | enter (b : UInt8)

/-- The machine behind it, unless the block is not loaded or the language leaves undefined what
happens. -/
def act (f : VariableFactory W H) (vm : VM W H) : Act → Option (VM W H)
  | .round =>
    match step f vm with
    | .inl vm' => some vm'
    | .inr (.undefined, _) => none
    | .inr (_, vm') => some vm'
  | .enter b => if b.toNat < vm.blocks.length then some (vm.enterBlock b) else none

/-- What a round asks for is admitted. -/
def Asks (vm : VM W H) : Act → Prop
  | .round => ∀ request, vm.requested = some request → request.Admitted vm
  | .enter _ => True

/-- The start of a block. -/
theorem inside_enterBlock (hshort : ∀ code ∈ vm.blocks, code.length < 2 ^ blockCodeIpShift)
    (hframes : ∀ frame ∈ vm.callStack.dropLast, Reaches vm.blocks frame.returnAddress) {b : UInt8}
    (hb : b.toNat < vm.blocks.length) : (vm.enterBlock b).Inside := by
  have hshift : b.toNat <<< blockCodeIpShift >>> blockCodeIpShift = b.toNat :=
    Nat.shiftLeft_shiftRight _ _
  have hmod : b.toNat <<< blockCodeIpShift % 2 ^ blockCodeIpShift = 0 := by
    rw [Nat.shiftLeft_eq, Nat.mul_mod_left]
  have hstart : Reaches ({ vm with blockNum := b } : VM W H).blocks
      ({ vm with blockNum := b } : VM W H).getBlockStartIp := by
    rw [Reaches, getBlockStartIp, hshift, hmod]
    exact ⟨hb, Nat.zero_le _⟩
  rw [enterBlock, VM.jump, jump?_of_reaches hstart]
  exact ⟨hstart.1, hstart.2, hshort, hframes⟩

theorem Inside.act (h : vm.Inside) {a : Act} (hasks : vm.Asks a)
    (hact : vm.act f a = some vm') : vm'.Inside := by
  cases a with
  | round =>
    have hstep := (h.judged_step (f := f)).2 hasks
    rw [VM.act] at hact
    split at hact
    · next vm₁ heq =>
      rw [heq] at hstep
      cases hact
      exact hstep
    · cases hact
    · next verdict vm₁ _ heq =>
      rw [heq] at hstep
      cases hact
      exact hstep
  | enter b =>
    rw [VM.act] at hact
    split at hact
    · next hb =>
      cases hact
      exact inside_enterBlock h.short h.frames hb
    · cases hact

/-- From a cleared machine, as long as each round asks only for what is there, the pointer stays in
the loaded code; and then the next round goes where it is asked to go, or comes back with an error,
exactly if it asks for what is there, too. -/
theorem noticed_iff_admitted (f : VariableFactory W H) (vm : VM W H) (b : UInt8)
    (hshort : ∀ code ∈ vm.blocks, code.length < 2 ^ blockCodeIpShift)
    (hb : b.toNat < vm.blocks.length) {history : List Act}
    (heach : Trace.EachStep (act f) (fun _ vm a _ => vm.Asks a) (vm.clear.enterBlock b) history) :
    Trace.Always (act f) (fun _ vm => vm.Inside ∧
      (Noticed vm vm.requested (step f vm) ↔
        ∀ request, vm.requested = some request → request.Admitted vm))
      (vm.clear.enterBlock b) history := by
  have hstart : (vm.clear.enterBlock b).Inside :=
    inside_enterBlock (show ∀ code ∈ vm.clear.blocks, _ from hshort) (by simp [clear]) hb
  have halways : Trace.Always (act f) (fun _ vm => vm.Inside) (vm.clear.enterBlock b) history :=
    Trace.always hstart (fun _ _ _ _ _ hinside hasks hact => hinside.act hasks hact) heach
  intro past future vm' heq hrun
  have hinside := halways past future vm' heq hrun
  exact ⟨hinside, hinside.judged_step.1⟩

/-- A machine with one block. -/
def withBlock (code : Bytes) : VM Unit Unit := { fresh () with blocks := [code] }

/-- A push, and a jump to the end of the code. -/
def jumpToEnd : Bytes := [OpCode.pushConstant1.toByte, OpCode.jump.toByte, 0]

theorem jumpToEnd_asks : Trace.EachStep (act VariableFactory.zero) (fun _ vm a _ => vm.Asks a)
    ((withBlock jumpToEnd).clear.enterBlock 0) [.round] := by
  intro past a future t u heq hrun _
  obtain ⟨rfl, hrest⟩ : past = [] ∧ [Act.round] = a :: future := by
    cases past with
    | nil => exact ⟨rfl, heq⟩
    | cons first rest => simp at heq
  cases hrest
  cases hrun
  rintro request ⟨⟩

theorem jumpToEnd_noticed : ∃ vm, Trace.run (act VariableFactory.zero)
      ((withBlock jumpToEnd).clear.enterBlock 0) [.round] = some vm ∧
    vm.requested = some (.address 3) ∧ Noticed vm vm.requested (step VariableFactory.zero vm) := by
  have halways := noticed_iff_admitted VariableFactory.zero (withBlock jumpToEnd) 0 (by decide)
    (by decide) jumpToEnd_asks
  refine ⟨_, rfl, rfl, (halways [.round] [] _ rfl rfl).2.mpr ?_⟩
  rintro request ⟨⟩
  exact (by decide : Reaches [jumpToEnd] 3)

/-- A jump behind the end of the code goes on with the next instruction, and at the end of the code
the program has succeeded. -/
theorem jump_outside_succeeds : ∃ vm vm' : VM Unit Unit,
    vm = (withBlock [OpCode.jump.toByte, 5]).clear.enterBlock 0 ∧
    vm.requested = some (.address 7) ∧ ¬ Reaches vm.blocks 7 ∧
    step VariableFactory.zero vm = .inl vm' ∧
    step VariableFactory.zero vm' = .inr (.success, vm') ∧
    ¬ Noticed vm vm.requested (step VariableFactory.zero vm) := by
  refine ⟨_, _, rfl, rfl, by decide, rfl, rfl, fun hnoticed => ?_⟩
  exact absurd (hnoticed.2 _ rfl).1 (by decide)

end VM

end OpenmrnCue.Logic
