import OpenmrnCue.Automata.Runner

/-! What the runner reads is what the builders wrote: the fields of each byte, and the two loops
over the bytes of one condition or one action. -/

namespace OpenmrnCue.Automata

/-! ## Fields of the bytes -/

theorem ifState_fields : ∀ state < 32,
    (Insn.ifState ||| UInt8.ofNat state) &&& Insn.ifMiscaMask ≠ Insn.ifMiscaBase ∧
    (Insn.ifState ||| UInt8.ofNat state) &&& Insn.ifStateMask = Insn.ifState ∧
    (Insn.ifState ||| UInt8.ofNat state) &&& ~~~Insn.ifStateMask = UInt8.ofNat state := by
  decide

theorem ifReg_fields : ∀ (value : Bool), ∀ id < 32,
    let byte := Insn.ifReg ||| (if value then Insn.reg1 else 0) ||| UInt8.ofNat id
    byte &&& Insn.ifMiscaMask ≠ Insn.ifMiscaBase ∧ byte &&& Insn.ifStateMask ≠ Insn.ifState ∧
      byte &&& Insn.ifRegMask = Insn.ifReg ∧ (byte &&& Insn.ifRegBitnumMask).toNat = id ∧
      Insn.regValue byte = value := by
  decide

theorem actState_fields : ∀ state < 32,
    let byte := Insn.actState ||| UInt8.ofNat state
    byte ∉ [Insn.actImportVar, Insn.actSetEventid, Insn.actDefVar, Insn.actSetVarValue] ∧
      byte &&& Insn.actMiscaMask ≠ Insn.actMiscaBase ∧
      byte &&& Insn.actStateMask = Insn.actState ∧
      byte &&& ~~~Insn.actStateMask = UInt8.ofNat state := by
  decide

theorem actTimer_fields : ∀ seconds ≤ 30,
    let byte := Insn.actTimer ||| UInt8.ofNat seconds
    byte ∉ [Insn.actImportVar, Insn.actSetEventid, Insn.actDefVar, Insn.actSetVarValue] ∧
      byte &&& Insn.actMiscaMask ≠ Insn.actMiscaBase ∧
      byte &&& Insn.actStateMask ≠ Insn.actState ∧
      byte &&& Insn.actTimerMask = Insn.actTimer ∧
      byte &&& ~~~Insn.actTimerMask = UInt8.ofNat seconds ∧
      UInt8.ofNat seconds ≠ 0xff &&& ~~~Insn.actTimerMask := by
  decide

theorem actReg_fields : ∀ (value : Bool), ∀ id < 32,
    let byte := Insn.actReg ||| (if value then Insn.reg1 else 0) ||| UInt8.ofNat id
    byte ∉ [Insn.actImportVar, Insn.actSetEventid, Insn.actDefVar, Insn.actSetVarValue] ∧
      byte &&& Insn.actMiscaMask ≠ Insn.actMiscaBase ∧
      byte &&& Insn.actStateMask ≠ Insn.actState ∧ byte &&& Insn.actTimerMask ≠ Insn.actTimer ∧
      byte &&& Insn.actRegMask = Insn.actReg ∧ (byte &&& Insn.ifRegBitnumMask).toNat = id ∧
      Insn.regValue byte = value := by
  decide

theorem valueArgument_fields : ∀ offset < 8, ∀ id < 32,
    let byte := UInt8.ofNat (offset <<< 5) ||| UInt8.ofNat (id &&& 31)
    (byte &&& 31).toNat = id ∧ (byte >>> 5).toNat = offset := by
  decide

theorem header_fields : ∀ numact < 16, ∀ numif < 16,
    let byte := (UInt8.ofNat (numact &&& 0xf) <<< 4) ||| UInt8.ofNat (numif &&& 0xf)
    (byte &&& 0x0f).toNat = numif ∧ (byte >>> 4).toNat = numact ∧
      (byte = 0 ↔ numif = 0 ∧ numact = 0) := by
  decide

theorem toNat_ofNat_land (n : Nat) : (UInt8.ofNat (n &&& 0xff)).toNat = n % 256 := by
  rw [show (0xff : Nat) = 2 ^ 8 - 1 from rfl, Nat.and_two_pow_sub_one_eq_mod]
  simp

/-- The two bytes of an import hold the offset of the definition modulo 2¹⁶. -/
theorem globalOfs_fields (n : Nat) :
    (UInt8.ofNat (n &&& 0xff)).toNat ||| (UInt8.ofNat ((n >>> 8) &&& 0xff)).toNat <<< 8 =
      n % 2 ^ 16 := by
  rw [toNat_ofNat_land, toNat_ofNat_land, Nat.or_comm,
    ← Nat.shiftLeft_add_eq_or_of_lt (by omega), Nat.shiftLeft_eq, Nat.shiftRight_eq_div_pow]
  omega

theorem importArgument_fields {arg : Nat} (harg : arg < 8 <<< 8) {id : Nat} (hid : id < 32) :
    let byte := UInt8.ofNat ((arg >>> 8) <<< 5) ||| UInt8.ofNat (id &&& 31)
    (byte &&& 31).toNat = id ∧
      (byte >>> 5).toNat <<< 8 ||| (UInt8.ofNat (arg &&& 0xff)).toNat = arg := by
  have hhigh : arg >>> 8 < 8 := by
    rw [Nat.shiftRight_eq_div_pow]
    have : (8 : Nat) <<< 8 = 2048 := rfl
    omega
  obtain ⟨hlocal, hoffset⟩ := valueArgument_fields _ hhigh id hid
  refine ⟨hlocal, ?_⟩
  rw [hoffset, toNat_ofNat_land, ← Nat.shiftLeft_add_eq_or_of_lt (by omega), Nat.shiftLeft_eq,
    Nat.shiftRight_eq_div_pow]
  omega

/-! ## Event ids -/

/-- Two words with the same bits from `k` on. -/
def AgreeFrom (k : Nat) (x y : UInt64) : Prop :=
  ∀ i, k ≤ i → x.toBitVec.getLsbD i = y.toBitVec.getLsbD i

theorem AgreeFrom.eq {x y : UInt64} (h : AgreeFrom 0 x y) : x = y :=
  UInt64.toBitVec_inj.mp (BitVec.eq_of_getLsbD_eq fun i _ => h i (Nat.zero_le i))

theorem shift_toBitVec :
    ∀ n < 8, (UInt64.ofNat (n * 8)).toBitVec % 64 = BitVec.ofNat 64 (n * 8) := by
  decide

theorem getLsbD_ff (j : Nat) : (0xff : UInt64).toBitVec.getLsbD j = decide (j < 8) := by
  rw [show (0xff : UInt64).toBitVec = BitVec.setWidth 64 (BitVec.allOnes 8) from rfl,
    BitVec.getLsbD_setWidth, BitVec.getLsbD_allOnes]
  by_cases h : j < 8
  · simp [h, show j < 64 by omega]
  · simp [h]

/-- Replacing byte `n` of a word that agrees with `id` above it. -/
theorem AgreeFrom.set_byte {n : Nat} (hn : n < 8) {old id : UInt64}
    (h : AgreeFrom ((n + 1) * 8) old id) :
    AgreeFrom (n * 8) ((old &&& ~~~((0xff : UInt64) <<< UInt64.ofNat (n * 8))) |||
      (eventIdByte id n).toUInt64 <<< UInt64.ofNat (n * 8)) id := by
  intro i hi
  by_cases h64 : i < 64
  · have hsub : n * 8 + (i - n * 8) = i := by omega
    have hmod : n * 8 % 2 ^ 64 = n * 8 := by omega
    simp only [eventIdByte, UInt64.toBitVec_or, UInt64.toBitVec_and, UInt64.toBitVec_not,
      UInt64.toBitVec_shiftLeft, UInt64.toBitVec_shiftRight, UInt8.toBitVec_toUInt64,
      UInt64.toBitVec_toUInt8, BitVec.getLsbD_or, BitVec.getLsbD_and, BitVec.getLsbD_not,
      shift_toBitVec n hn, BitVec.shiftLeft_eq', BitVec.ushiftRight_eq', BitVec.getLsbD_shiftLeft,
      BitVec.getLsbD_ushiftRight, BitVec.getLsbD_setWidth, getLsbD_ff, h64, BitVec.toNat_ofNat,
      hmod, Nat.not_lt.mpr hi, hsub, decide_true, decide_false, Bool.not_false, Bool.true_and]
    by_cases hbyte : i - n * 8 < 8
    · simp [hbyte]
      omega
    · have := h i (by omega)
      simp only [hbyte, this, decide_false, Bool.and_false, Bool.not_false, Bool.and_true,
        Bool.or_false]
  · rw [BitVec.getLsbD_of_ge _ _ (by omega), BitVec.getLsbD_of_ge _ _ (by omega)]

/-! ## Reading -/

/-- The bytes that the code has from an offset on. -/
def Reads (code : List Insn) (ip : Nat) (bytes : List Insn) : Prop := bytes <+: code.drop ip

namespace Reads

variable {code : List Insn} {ip : Nat} {b : Insn} {bytes more : List Insn}

theorem head (h : Reads code ip (b :: bytes)) : code[ip]? = some b := by
  obtain ⟨rest, hrest⟩ := h
  have : (code.drop ip)[0]? = some b := by rw [← hrest]; rfl
  simpa using this

theorem tail (h : Reads code ip (b :: bytes)) : Reads code (ip + 1) bytes := by
  obtain ⟨rest, hrest⟩ := h
  refine ⟨rest, ?_⟩
  rw [← List.drop_drop, ← hrest]
  rfl

theorem append_left (h : Reads code ip (bytes ++ more)) : Reads code ip bytes :=
  (List.prefix_append bytes more).trans h

theorem append_right (h : Reads code ip (bytes ++ more)) :
    Reads code (ip + bytes.length) more := by
  obtain ⟨rest, hrest⟩ := h
  refine ⟨rest, ?_⟩
  rw [← List.drop_drop, ← hrest, List.append_assoc, List.drop_left]

end Reads

variable {W : Type} {bits : BitObjects W} {code : List Insn} {ip : Nat} {m : Machine W}

theorem loadInsn_of_reads {b : Insn} {bytes : List Insn} (h : Reads code ip (b :: bytes)) :
    Runner.loadInsn code ⟨ip, m⟩ = .ok (b, ⟨ip + 1, m⟩) := by
  rw [Runner.loadInsn, h.head]

/-- Reading the bytes `n` to 0 of an event id. -/
theorem loadEventBytes_eq {id : UInt64} {dest : Fin 2} {n : Nat} (hn : n < 8)
    (h : Reads code ip (eventIdBytes id n))
    (hagree : AgreeFrom ((n + 1) * 8) (m.eventIds dest) id) :
    Runner.loadEventBytes code dest n ⟨ip, m⟩ =
      .ok ⟨ip + (n + 1), { m with eventIds := Function.update m.eventIds dest id }⟩ := by
  induction n generalizing ip m with
  | zero =>
    have hid := (hagree.set_byte hn).eq
    rw [Runner.loadEventBytes, loadInsn_of_reads h]
    simp only [Except.ok_bind]
    rw [hid]
  | succ n ih =>
    have hid := hagree.set_byte hn
    rw [Runner.loadEventBytes, loadInsn_of_reads h]
    simp only [Except.ok_bind]
    rw [ih (by omega) h.tail (by simpa using hid)]
    simp only [Function.update_idem]
    congr 2
    omega

end OpenmrnCue.Automata
