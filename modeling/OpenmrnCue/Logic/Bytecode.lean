import Mathlib.Data.List.Basic
import Mathlib.Algebra.Order.Ring.Int

/-! The bytecode of the logic language: the opcodes, and the strings of bytes that the compiler
appends for an opcode, an integer and a text.  An integer is a varint: six low bits and the sign in
the first byte, seven more bits in each further byte, lowest first, with the top bit set on every
byte but the last. -/

namespace OpenmrnCue.Logic

/-- A `std::string` of code or text. -/
abbrev Bytes := List UInt8

/-- The numbered operations of the virtual machine. -/
inductive OpCode
  | terminate | pushConstant | pushConstant0 | pushConstant1 | pushTop | popOp | enter | leave
  | checkStackLength | storeFpRel | loadFpRel | indirectLoad | indirectStore
  | assignVar | assignVar0 | assignVar1 | loadString | createVar | createStaticVar | importVar
  | createIndirectVar | numericPlus | numericMinus | numericMul | numericDiv | numericMod
  | boolEq | boolNeq | numericLeq | numericGeq | numericLt | numericGt | numericEq | numericNeq
  | numericInvert | boolNot | boolProject | ifPreamble | jump | call | ret
  | testJumpIfFalse | testJumpIfTrue | printNum | printStr | nop
  deriving DecidableEq, Repr

namespace OpCode

/-- The enumeration counts from 0, except that `NOP` is `0xff`. -/
def toByte : OpCode → UInt8
  | terminate => 0 | pushConstant => 1 | pushConstant0 => 2 | pushConstant1 => 3 | pushTop => 4
  | popOp => 5 | enter => 6 | leave => 7 | checkStackLength => 8 | storeFpRel => 9
  | loadFpRel => 10 | indirectLoad => 11 | indirectStore => 12 | assignVar => 13
  | assignVar0 => 14 | assignVar1 => 15 | loadString => 16 | createVar => 17
  | createStaticVar => 18 | importVar => 19 | createIndirectVar => 20 | numericPlus => 21
  | numericMinus => 22 | numericMul => 23 | numericDiv => 24 | numericMod => 25 | boolEq => 26
  | boolNeq => 27 | numericLeq => 28 | numericGeq => 29 | numericLt => 30 | numericGt => 31
  | numericEq => 32 | numericNeq => 33 | numericInvert => 34 | boolNot => 35 | boolProject => 36
  | ifPreamble => 37 | jump => 38 | call => 39 | ret => 40 | testJumpIfFalse => 41
  | testJumpIfTrue => 42 | printNum => 43 | printStr => 44 | nop => 0xff

/-- The opcode that a byte stands for, if it stands for one. -/
def ofByte (b : UInt8) : Option OpCode :=
  [terminate, pushConstant, pushConstant0, pushConstant1, pushTop, popOp, enter, leave,
    checkStackLength, storeFpRel, loadFpRel, indirectLoad, indirectStore, assignVar, assignVar0,
    assignVar1, loadString, createVar, createStaticVar, importVar, createIndirectVar, numericPlus,
    numericMinus, numericMul, numericDiv, numericMod, boolEq, boolNeq, numericLeq, numericGeq,
    numericLt, numericGt, numericEq, numericNeq, numericInvert, boolNot, boolProject, ifPreamble,
    jump, call, ret, testJumpIfFalse, testJumpIfTrue, printNum, printStr, nop].find?
    (fun op => op.toByte == b)

@[simp] theorem ofByte_toByte (op : OpCode) : ofByte op.toByte = some op := by
  cases op <;> rfl

end OpCode

/-! ### Varints -/

/-- The loop of `append_varint`: `b` is the last byte so far, and `value` what is left of the
number.  Every group after the first takes seven bits, so five rounds exhaust 32 bits. -/
def varintLoop (stop : BitVec 32) : Nat → UInt8 → BitVec 32 → Bytes
  | 0, b, _ => [b]
  | fuel + 1, b, value =>
    if value = stop then [b]
    else (b ||| 0x80) ::
      varintLoop stop fuel (.ofBitVec (value.setWidth 8 &&& 0x7f)) (value.sshiftRight 7)

/-- The bytes that `BytecodeStream::append_varint` appends for `value`. -/
def appendVarint (value : Int32) : Bytes :=
  let v := value.toBitVec
  let low : UInt8 := .ofBitVec (v.setWidth 8 &&& 0x3f)
  if v = 0 then [0]
  else if 0 < value then varintLoop 0 5 low (v.sshiftRight 6)
  else varintLoop (-1) 5 (0x40 ||| low) (v.sshiftRight 6)

/-- The loop of `parse_varint`: `b` is the byte at the instruction pointer and `ret` the number so
far, with `b` already in it. -/
def parseVarintLoop (b : UInt8) (ret : BitVec 32) (ofs : Nat) (rest : Bytes) :
    Option (Int32 × Bytes) :=
  if b &&& 0x80 = 0 then some (.ofBitVec ret, rest)
  else
    match rest with
    | [] => none
    | c :: rest =>
      parseVarintLoop c
        ((ret &&& ~~~((0x7f : BitVec 32) <<< ofs)) |||
          ((c &&& 0x7f).toBitVec.setWidth 32 <<< ofs)) (ofs + 7) rest

/-- `VM::parse_varint` on the bytes from the instruction pointer on: the number, and the bytes
after it; `none` at the end of the code. -/
def parseVarint : Bytes → Option (Int32 × Bytes)
  | [] => none
  | b :: rest =>
    let ret : BitVec 32 := if b &&& 0x40 ≠ 0 then -1 else 0
    parseVarintLoop b
      ((ret &&& ~~~(0x3f : BitVec 32)) ||| (b &&& 0x3f).toBitVec.setWidth 32) 6 rest

/-- The bytes of a text. -/
def textBytes (s : String) : Bytes := s.toList.flatMap String.utf8EncodeChar

/-- The bytes that `BytecodeStream::append_string` appends. -/
def appendString (value : Bytes) : Bytes := appendVarint (.ofNat value.length) ++ value

example : appendVarint 64 = [0x80, 1] := by decide
example : appendVarint (-3271) = [0xf9, 0x4c] := by decide
example : parseVarint [0xf9, 0x4c, 7] = some (-3271, [7]) := by decide

/-! ### Reading back a varint -/

theorem and_7f_of_last (b : UInt8) (h : b &&& 0x80 = 0) : b &&& 0x7f = b := by
  obtain ⟨b⟩ := b
  revert h b
  decide

theorem and_7f_of_continued (b : UInt8) (h : b &&& 0x80 = 0) : (b ||| 0x80) &&& 0x7f = b := by
  obtain ⟨b⟩ := b
  revert h b
  decide

theorem continued_and_80 (b : UInt8) : ¬(b ||| 0x80) &&& 0x80 = 0 := by
  obtain ⟨b⟩ := b
  revert b
  decide

theorem group_and_80 (w : BitVec 8) : UInt8.ofBitVec (w &&& 0x7f) &&& 0x80 = 0 := by
  revert w
  decide

/-- `ret` has the bits of `v` below `ofs`, and the sign of `v` from there on. -/
def Decoded (v ret : BitVec 32) (ofs : Nat) : Prop :=
  ∀ i < 32, ret.getLsbD i = if i < ofs then v.getLsbD i else v.msb

/-- What a number is shifted to in the end: 0, or -1 if it is negative. -/
def signFill (v : BitVec 32) : BitVec 32 := if v.msb then -1 else 0

theorem getLsbD_signFill (v : BitVec 32) {i : Nat} (hi : i < 32) :
    (signFill v).getLsbD i = v.msb := by
  unfold signFill
  split
  · next h =>
    rw [h, show (-1 : BitVec 32) = BitVec.allOnes 32 by decide, BitVec.getLsbD_allOnes,
      decide_eq_true hi]
  · next h => simpa using h

theorem Decoded.eq_of_signFill {v ret : BitVec 32} {ofs : Nat} (h : Decoded v ret ofs)
    (hs : v.sshiftRight ofs = signFill v) : ret = v := by
  apply BitVec.eq_of_getLsbD_eq
  intro i hi
  rw [h i hi]
  split
  · rfl
  · have := congrArg (fun w => w.getLsbD (i - ofs)) hs
    simp only [BitVec.getLsbD_sshiftRight, getLsbD_signFill v (by omega : i - ofs < 32)] at this
    rw [show ofs + (i - ofs) = i by omega] at this
    simp [hi, show ¬(32 ≤ i - ofs) by omega] at this
    exact this.symm

theorem getLsbD_mask {w n : Nat} (m : BitVec w) (h : ∀ j < w, m.getLsbD j = decide (j < n))
    (hn : n ≤ w) (j : Nat) : m.getLsbD j = decide (j < n) := by
  by_cases hj : j < w
  · exact h j hj
  · rw [BitVec.getLsbD_of_ge _ _ (by omega)]
    simp
    omega

/-- The first byte holds six bits of the number, and its sign. -/
theorem Decoded.first (v : BitVec 32) :
    Decoded v ((signFill v &&& ~~~(0x3f : BitVec 32)) ||| (v.setWidth 8 &&& 0x3f).setWidth 32)
      6 := by
  intro i hi
  have mask32 := getLsbD_mask (n := 6) (0x3f : BitVec 32) (by decide) (by decide)
  have mask8 := getLsbD_mask (n := 6) (0x3f : BitVec 8) (by decide) (by decide)
  simp only [BitVec.getLsbD_or, BitVec.getLsbD_and, BitVec.getLsbD_not, BitVec.getLsbD_setWidth,
    mask32, mask8, getLsbD_signFill v hi]
  by_cases h : i < 6
  · simp [h, hi, show i < 8 by omega]
  · simp [h, hi]

/-- A further byte holds seven more bits. -/
theorem Decoded.next {v ret : BitVec 32} {ofs : Nat} (h : Decoded v ret ofs) :
    Decoded v ((ret &&& ~~~((0x7f : BitVec 32) <<< ofs)) |||
      (((v.sshiftRight ofs).setWidth 8 &&& 0x7f).setWidth 32 <<< ofs)) (ofs + 7) := by
  intro i hi
  have mask32 := getLsbD_mask (n := 7) (0x7f : BitVec 32) (by decide) (by decide)
  have mask8 := getLsbD_mask (n := 7) (0x7f : BitVec 8) (by decide) (by decide)
  simp only [BitVec.getLsbD_or, BitVec.getLsbD_and, BitVec.getLsbD_not, BitVec.getLsbD_shiftLeft,
    BitVec.getLsbD_setWidth, BitVec.getLsbD_sshiftRight, mask32, mask8, h i hi]
  by_cases h1 : i < ofs
  · simp [h1, show i < ofs + 7 by omega, hi]
  · by_cases h2 : i < ofs + 7
    · simp [h1, h2, hi, show i - ofs < 7 by omega, show i - ofs < 8 by omega,
        show i - ofs < 32 by omega, show ofs + (i - ofs) = i by omega]
    · simp [h1, h2, hi, show ¬(i - ofs < 7) by omega]

-- Induction on the rounds left.  The two loops are one byte out of step: the writer still holds
-- the byte `b`, while the reader has already merged it into `ret` and looks only at its top bit.
theorem parseVarintLoop_varintLoop (v : BitVec 32) (rest : Bytes) (fuel : Nat) (b : UInt8)
    (ofs : Nat) (ret : BitVec 32) (hb : b &&& 0x80 = 0) (hofs : 32 ≤ ofs + 7 * fuel)
    (hret : Decoded v ret ofs) :
    ∃ c tail, varintLoop (signFill v) fuel b (v.sshiftRight ofs) ++ rest = c :: tail ∧
      c &&& 0x7f = b ∧ parseVarintLoop c ret ofs tail = some (.ofBitVec v, rest) := by
  induction fuel generalizing b ofs ret with
  | zero =>
    have hv : ret = v := by
      apply BitVec.eq_of_getLsbD_eq
      intro i hi
      rw [hret i hi, if_pos (by omega)]
    refine ⟨b, rest, rfl, and_7f_of_last b hb, ?_⟩
    rw [parseVarintLoop.eq_def, if_pos hb, hv]
  | succ fuel ih =>
    rw [varintLoop]
    split
    · next hs =>
      refine ⟨b, rest, rfl, and_7f_of_last b hb, ?_⟩
      rw [parseVarintLoop.eq_def, if_pos hb, hret.eq_of_signFill hs]
    · obtain ⟨c, tail, hc, hlow, hparse⟩ :=
        ih (.ofBitVec ((v.sshiftRight ofs).setWidth 8 &&& 0x7f)) (ofs + 7) _ (group_and_80 _)
          (by omega) hret.next
      rw [← BitVec.sshiftRight_add]
      refine ⟨b ||| 0x80, c :: tail, by rw [List.cons_append, hc], and_7f_of_continued b hb, ?_⟩
      rw [parseVarintLoop, if_neg (continued_and_80 b), hlow]
      exact hparse

theorem parseVarint_varintLoop (v : BitVec 32) (rest : Bytes) {b : UInt8} (h80 : b &&& 0x80 = 0)
    (h3f : b &&& 0x3f = .ofBitVec (v.setWidth 8 &&& 0x3f))
    (h40 : (if b &&& 0x40 ≠ 0 then (-1 : BitVec 32) else 0) = signFill v) :
    parseVarint (varintLoop (signFill v) 5 b (v.sshiftRight 6) ++ rest) =
      some (.ofBitVec v, rest) := by
  obtain ⟨c, tail, hc, hlow, hparse⟩ :=
    parseVarintLoop_varintLoop v rest 5 b 6 _ h80 (by omega) (Decoded.first v)
  have hc3f : c &&& 0x3f = b &&& 0x3f := by rw [← hlow, UInt8.and_assoc]; rfl
  have hc40 : c &&& 0x40 = b &&& 0x40 := by rw [← hlow, UInt8.and_assoc]; rfl
  rw [hc, parseVarint, hc40, h40, hc3f, h3f]
  exact hparse

/-- The two shapes of the first byte: without and with the sign bit. -/
theorem first_byte (w : BitVec 8) :
    let low := UInt8.ofBitVec (w &&& 0x3f)
    (low &&& 0x80 = 0 ∧ low &&& 0x3f = low ∧ low &&& 0x40 = 0) ∧
      (0x40 ||| low) &&& 0x80 = 0 ∧ (0x40 ||| low) &&& 0x3f = low ∧ (0x40 ||| low) &&& 0x40 ≠ 0 := by
  revert w
  decide

/-- Reading what was appended gives the number back, with the bytes after it untouched. -/
@[simp] theorem parseVarint_appendVarint (value : Int32) (rest : Bytes) :
    parseVarint (appendVarint value ++ rest) = some (value, rest) := by
  obtain ⟨⟨pos80, pos3f, pos40⟩, neg80, neg3f, neg40⟩ := first_byte (value.toBitVec.setWidth 8)
  have hmsb : value.toBitVec.msb = decide (value < 0) := by
    rw [BitVec.msb_eq_toInt]
    exact decide_eq_decide.mpr (Int32.lt_iff_toInt_lt (x := value) (y := 0)).symm
  simp only [appendVarint]
  split
  · next h0 =>
    obtain rfl : value = 0 := Int32.toBitVec_inj.mp h0
    rw [List.singleton_append, parseVarint, parseVarintLoop.eq_def]
    rfl
  · next h0 =>
    split
    · next hpos =>
      have hneg : ¬value < 0 := fun h => absurd (Int32.lt_trans hpos h) Int32.lt_irrefl
      have hfill : signFill value.toBitVec = 0 := by simp [signFill, hmsb, hneg]
      rw [← hfill]
      exact parseVarint_varintLoop _ rest pos80 pos3f (by rw [pos40, hfill]; rfl)
    · next hpos =>
      have hneg : value < 0 := by
        rw [Int32.lt_iff_toInt_lt] at hpos ⊢
        have hne : value.toInt ≠ 0 := fun h =>
          h0 (BitVec.eq_of_toInt_eq (by simpa using h))
        simp at hpos ⊢
        omega
      have hfill : signFill value.toBitVec = -1 := by simp [signFill, hmsb, hneg]
      rw [← hfill]
      exact parseVarint_varintLoop _ rest neg80 neg3f (by rw [if_pos neg40, hfill])

end OpenmrnCue.Logic
