import OpenmrnCue.Library.OpenFile
import Mathlib.Data.List.Induction
import Mathlib.Algebra.Order.Ring.Int

/-! The backing file of `MemorizingHandlerManager` in `MemorizingEventHandler.cxx`: for each block
of events a bit field that is wide enough for the events of the block and one more value, packed
without gaps from `file_offset_` on.  The host is little-endian. -/

namespace OpenmrnCue.Custom

open OpenFile BitStream

/-- `read_repeated`: the bytes, those past the end of the file zero, and how many were read. -/
def readRepeated (host : Host) (file : OpenFile) (bytes : Nat) :
    List (BitVec 8) × Nat × OpenFile :=
  if bytes = 0 then ([], 0, file)
  else if host.readCount file bytes = 0 then
    (List.replicate bytes 0, 0, (read host file bytes).2)
  else
    let (chunk, next) := read host file bytes
    let (rest, rd, last) := readRepeated host next (bytes - host.readCount file bytes)
    (chunk ++ rest, host.readCount file bytes + rd, last)
termination_by bytes
decreasing_by omega

/-- `write_repeated`. -/
def writeRepeated (host : Host) (file : OpenFile) (data : List (BitVec 8)) : OpenFile :=
  if hdata : data.length = 0 then file
  else
    have hpos := host.writeCount_pos file data.length (Nat.pos_of_ne_zero hdata)
    have hless : (data.drop (host.writeCount file data.length)).length < data.length := by
      rw [List.length_drop]
      omega
    writeRepeated host (write host file data).2 (data.drop (host.writeCount file data.length))
termination_by data.length

section

variable {host : Host} {file : OpenFile}

/-- What `read_repeated` finds. -/
theorem readRepeated_spec (n : Nat) :
    (readRepeated host file n).1.length = n ∧
    (∀ i < n, byte (readRepeated host file n).1 i = byte file.bytes (file.position + i)) ∧
    (readRepeated host file n).2.2.bytes = file.bytes := by
  fun_induction readRepeated host file n with
  | case1 file => simp
  | case2 file n hn hcount =>
    refine ⟨by simp, fun i hi => ?_, rfl⟩
    have hend := length_le_of_readCount (Nat.pos_of_ne_zero hn) hcount
    have hzero : byte file.bytes (file.position + i) = 0 := byte_of_length_le (by omega)
    rw [hzero, byte_replicate_zero]
  | case3 file n hn hcount chunk next hread rest rd last hrest ih =>
    rw [hrest] at ih
    obtain ⟨hlength, hbytes, hsame⟩ := ih
    have hle := (host.readCount_le file n).1
    have hnext : next.bytes = file.bytes ∧
        next.position = file.position + host.readCount file n := by
      have hnext : (read host file n).2 = next := congrArg Prod.snd hread
      exact hnext ▸ ⟨rfl, rfl⟩
    have hread : (read host file n).1 = chunk := congrArg Prod.fst hread
    have hchunk : chunk.length = host.readCount file n := hread ▸ length_read file n
    dsimp only at hlength hbytes hsame ⊢
    refine ⟨by rw [List.length_append]; omega, fun i hi => ?_, hsame.trans hnext.1⟩
    rw [byte_append, hchunk]
    by_cases hfirst : i < host.readCount file n
    · rw [if_pos hfirst, ← hread, byte_read hfirst]
    · rw [if_neg hfirst, hbytes _ (by omega), hnext.1, hnext.2]
      congr 1
      omega

/-- What `write_repeated` leaves in the file. -/
theorem byte_writeRepeated (data : List (BitVec 8)) (i : Nat) :
    byte (writeRepeated host file data).bytes i =
      if file.position ≤ i ∧ i < file.position + data.length then byte data (i - file.position)
      else byte file.bytes i := by
  fun_induction writeRepeated host file data with
  | case1 file data hdata =>
    have hout : ¬(file.position ≤ i ∧ i < file.position + data.length) := by omega
    rw [if_neg hout]
  | case2 file data hdata hpos hless ih =>
    have hle := host.writeCount_le file data.length
    rw [ih]
    simp only [write, List.length_drop, byte_splice, byte_drop, List.length_take]
    by_cases hlater : file.position + host.writeCount file data.length ≤ i ∧
        i < file.position + data.length
    · rw [if_pos (by omega), if_pos (by omega)]
      congr 1
      omega
    by_cases hfirst : file.position ≤ i ∧ i < file.position + host.writeCount file data.length
    · rw [if_neg (by omega), if_pos (by omega), if_pos (by omega), byte_take _ (by omega)]
    · rw [if_neg (by omega), if_neg (by omega), if_neg (by omega)]

theorem bit_readRepeated (n p : Nat) :
    bit (readRepeated host file n).1 p =
      (decide (p < 8 * n) && bit file.bytes (8 * file.position + p)) := by
  obtain ⟨hlength, hbytes, -⟩ := @readRepeated_spec host file n
  by_cases hp : p < 8 * n
  · have hdiv : (8 * file.position + p) / 8 = file.position + p / 8 := by omega
    have hmod : (8 * file.position + p) % 8 = p % 8 := by omega
    rw [bit, hbytes _ (by omega), bit, hdiv, hmod]
    simp [hp]
  · rw [bit_of_byte (byte_of_length_le (by omega))]
    simp [hp]

theorem bit_writeRepeated (data : List (BitVec 8)) (p : Nat) :
    bit (writeRepeated host file data).bytes p =
      if 8 * file.position ≤ p ∧ p < 8 * (file.position + data.length) then
        bit data (p - 8 * file.position)
      else bit file.bytes p := by
  rw [bit, byte_writeRepeated]
  by_cases hp : 8 * file.position ≤ p ∧ p < 8 * (file.position + data.length)
  · have hdiv : (p - 8 * file.position) / 8 = p / 8 - file.position := by omega
    have hmod : (p - 8 * file.position) % 8 = p % 8 := by omega
    rw [if_pos hp, if_pos (by omega), bit, hdiv, hmod]
  · rw [if_neg hp, if_neg (by omega)]
    rfl

end

/-- `MemorizingHandlerManager`, as far as the file is concerned.  The numbers are of type
`unsigned`. -/
structure MemorizingHandlerManager where
  eventBase : BitVec 64
  numTotalEvents : Nat
  blockSize : Nat
  fileOffset : Nat

/-- `BlockOffsetInfo`. -/
structure BlockOffsetInfo where
  fileOffset : Nat
  readBytes : Nat
  shiftCount : Nat
  bitsUsed : Nat

namespace MemorizingHandlerManager

/-- The loop that doubles `max_size` while the block does not fit.  `left` is `32 - bits_used`. -/
def countBits (blockSize : Nat) : (left maxSize : Nat) → Nat
  | 0, _ => 32
  | left + 1, maxSize =>
    if blockSize ≥ maxSize then countBits blockSize left (maxSize * 2 % 2 ^ 32)
    else 32 - (left + 1)

/-- `bits_used`, which starts at 2 with a `max_size` of 4. -/
def bitsUsed (m : MemorizingHandlerManager) : Nat := countBits m.blockSize 30 4

/-- `GetBlockFileOffset`.  There is no result when the assertion fails. -/
def getBlockFileOffset (m : MemorizingHandlerManager) (blockNum : Nat) : Option BlockOffsetInfo :=
  let bitOffset := blockNum * m.bitsUsed % 2 ^ 32
  let shiftCount := bitOffset &&& 7
  let readBytes := (shiftCount + m.bitsUsed + 7) >>> 3
  if readBytes ≤ 8 then
    some ⟨(m.fileOffset + (bitOffset >>> 3)) % 2 ^ 32, readBytes, shiftCount, m.bitsUsed⟩
  else none

/-- `GetBlockFromFile`, with the file after it. -/
def getBlockFromFile (host : Host) (m : MemorizingHandlerManager) (file : OpenFile)
    (blockNum : Nat) : Option (BitVec 64 × OpenFile) := do
  let info ← m.getBlockFileOffset blockNum
  let (offset, file) := file.lseek info.fileOffset
  if offset < info.fileOffset then return (0, file)
  let (bytes, _, file) := readRepeated host file info.readBytes
  let data := load 64 bytes
  let data := data >>> info.shiftCount
  let data := data &&& (((1 : BitVec 64) <<< info.bitsUsed) - 1)
  if data = 0 then return (0, file)
  let data := data - 1
  return (m.eventBase + BitVec.ofNat 64 (blockNum * m.blockSize % 2 ^ 32) + data, file)

/-- `SaveValidEventToFile`.  There is no result when an assertion fails. -/
def saveValidEventToFile (host : Host) (m : MemorizingHandlerManager) (file : OpenFile)
    (eventid : BitVec 64) : Option OpenFile := do
  let blockNum := (eventid - m.eventBase).toNat / m.blockSize % 2 ^ 32
  let blockBase := blockNum * m.blockSize % 2 ^ 32
  let blockValue := eventid - m.eventBase - BitVec.ofNat 64 blockBase
  let info ← m.getBlockFileOffset blockNum
  let (offset, file) := file.lseek info.fileOffset
  guard (offset = info.fileOffset)
  let blockValue := blockValue + 1
  let mask := ((1 : BitVec 64) <<< info.bitsUsed) - 1
  guard (blockValue &&& mask = blockValue)
  let (bytes, _, file) := readRepeated host file info.readBytes
  let data := load 64 bytes
  let blockValue := blockValue <<< info.shiftCount
  let mask := mask <<< info.shiftCount
  let data := data &&& ~~~mask
  let data := data ||| blockValue
  let (offset, file) := file.lseek info.fileOffset
  guard (offset = info.fileOffset)
  return writeRepeated host file (store info.readBytes data)

/-! ### The bit fields -/

variable {host : Host} {m : MemorizingHandlerManager} {file : OpenFile} {b : Nat}

/-- The loop ends with the least of these widths that the values of a block fit in. -/
theorem countBits_spec {blockSize : Nat} (hsize : blockSize < 2 ^ 32) (left : Nat)
    (hleft : left ≤ 30) :
    2 ≤ countBits blockSize left (2 ^ (32 - left) % 2 ^ 32) ∧
    countBits blockSize left (2 ^ (32 - left) % 2 ^ 32) ≤ 32 ∧
    blockSize < 2 ^ countBits blockSize left (2 ^ (32 - left) % 2 ^ 32) := by
  induction left with
  | zero => exact ⟨(by decide : 2 ≤ 32), Nat.le_refl 32, hsize⟩
  | succ left ih =>
    have hpow : 2 ^ (32 - (left + 1)) % 2 ^ 32 = 2 ^ (32 - (left + 1)) :=
      Nat.mod_eq_of_lt (Nat.pow_lt_pow_right (by decide) (by omega))
    have hdouble : 2 ^ (32 - (left + 1)) * 2 = 2 ^ (32 - left) := by
      rw [← Nat.pow_succ]
      congr 1
      omega
    rw [hpow, countBits]
    by_cases hmore : blockSize ≥ 2 ^ (32 - (left + 1))
    · rw [if_pos hmore, hdouble]
      exact ih (by omega)
    · rw [if_neg hmore]
      exact ⟨by omega, by omega, Nat.lt_of_not_le hmore⟩

theorem bitsUsed_spec (hsize : m.blockSize < 2 ^ 32) :
    2 ≤ m.bitsUsed ∧ m.bitsUsed ≤ 32 ∧ m.blockSize < 2 ^ m.bitsUsed :=
  countBits_spec hsize 30 (Nat.le_refl 30)

/-- The first byte of a block. -/
def blockOffset (m : MemorizingHandlerManager) (b : Nat) : Nat :=
  (m.fileOffset + b * m.bitsUsed % 2 ^ 32 / 8) % 2 ^ 32

/-- The first bit of a block in its first byte. -/
def blockShift (m : MemorizingHandlerManager) (b : Nat) : Nat := b * m.bitsUsed % 2 ^ 32 % 8

/-- The number of bytes that have bits of a block. -/
def blockBytes (m : MemorizingHandlerManager) (b : Nat) : Nat :=
  (m.blockShift b + m.bitsUsed + 7) / 8

theorem getBlockFileOffset_eq (hbits : m.bitsUsed ≤ 32) (b : Nat) :
    m.getBlockFileOffset b =
      some ⟨m.blockOffset b, m.blockBytes b, m.blockShift b, m.bitsUsed⟩ := by
  have hshift : b * m.bitsUsed % 2 ^ 32 &&& 7 = m.blockShift b :=
    Nat.and_two_pow_sub_one_eq_mod _ 3
  have hbytes : (m.blockShift b + m.bitsUsed + 7) >>> 3 = m.blockBytes b :=
    Nat.shiftRight_eq_div_pow _ 3
  have hle : m.blockBytes b ≤ 8 := by
    unfold blockBytes blockShift
    omega
  unfold getBlockFileOffset
  dsimp only
  rw [hshift, hbytes, if_pos hle, Nat.shiftRight_eq_div_pow]
  rfl

/-- The low bits of a word. -/
theorem getLsbD_mask {n : Nat} (hn : n < 64) (i : Nat) :
    (((1 : BitVec 64) <<< n) - 1).getLsbD i = decide (i < n) := by
  have hpow : 2 ^ n < 2 ^ 64 := Nat.pow_lt_pow_right (by decide) hn
  have hpos : 0 < 2 ^ n := Nat.two_pow_pos n
  have hone : (1 : BitVec 64).toNat = 1 := rfl
  have hshift : ((1 : BitVec 64) <<< n).toNat = 2 ^ n := by
    rw [BitVec.toNat_shiftLeft, hone, Nat.shiftLeft_eq, Nat.one_mul, Nat.mod_eq_of_lt hpow]
  have hmask : (((1 : BitVec 64) <<< n) - 1).toNat = 2 ^ n - 1 := by
    rw [BitVec.toNat_sub, hshift, hone]
    omega
  rw [BitVec.getLsbD, hmask, Nat.testBit_two_pow_sub_one]

/-- A field with these bits has this value. -/
def Holds (bytes : List (BitVec 8)) (start width : Nat) (v : BitVec 64) : Prop :=
  ∀ i, v.getLsbD i = (decide (i < width) && bit bytes (start + i))

/-- The first bit of a block in the file. -/
def blockStart (m : MemorizingHandlerManager) (b : Nat) : Nat :=
  8 * m.blockOffset b + m.blockShift b

/-- The bits of a block are in the bytes that are read for it. -/
theorem blockShift_add_le (m : MemorizingHandlerManager) (b : Nat) :
    m.blockShift b + m.bitsUsed ≤ 8 * m.blockBytes b := by
  unfold blockBytes
  omega

theorem Holds.unique {bytes : List (BitVec 8)} {start width : Nat} {v w : BitVec 64}
    (hv : Holds bytes start width v) (hw : Holds bytes start width w) : v = w :=
  BitVec.eq_of_getLsbD_eq fun i _ => (hv i).trans (hw i).symm

/-- The word that is read for a block, when it is shifted and masked. -/
theorem holds_read (host : Host) (hbits : m.bitsUsed ≤ 32) (file : OpenFile) (b : Nat) :
    Holds file.bytes (m.blockStart b) m.bitsUsed
      ((load 64 (readRepeated host (file.lseek (m.blockOffset b)).2 (m.blockBytes b)).1 >>>
        m.blockShift b) &&& (((1 : BitVec 64) <<< m.bitsUsed) - 1)) := by
  intro i
  have hle := blockShift_add_le m b
  rw [BitVec.getLsbD_and, BitVec.getLsbD_ushiftRight, getLsbD_load, bit_readRepeated,
    getLsbD_mask (by omega), lseek_position, lseek_bytes, blockStart, Nat.add_assoc]
  by_cases hwidth : i < m.bitsUsed
  · have hword : m.blockShift b + i < 64 := by
      have hshift : m.blockShift b < 8 := Nat.mod_lt _ (by decide)
      omega
    have hread : m.blockShift b + i < 8 * m.blockBytes b := by omega
    simp [hwidth, hword, hread]
  · simp [hwidth]

/-- What is read of a block that has a value. -/
theorem getBlockFromFile_eq (hbits : m.bitsUsed ≤ 32) {v : BitVec 64}
    (hholds : Holds file.bytes (m.blockStart b) m.bitsUsed v) :
    ∃ file', file'.bytes = file.bytes ∧ m.getBlockFromFile host file b =
      some (if v = 0 then 0
        else m.eventBase + BitVec.ofNat 64 (b * m.blockSize % 2 ^ 32) + (v - 1), file') := by
  have hdata := (holds_read host hbits file b).unique hholds
  unfold getBlockFromFile
  rw [getBlockFileOffset_eq hbits]
  simp only [Option.bind_eq_bind, Option.bind_some]
  have hoffset : ¬(file.lseek (m.blockOffset b)).1 < m.blockOffset b := Nat.lt_irrefl _
  have hsame : (readRepeated host (file.lseek (m.blockOffset b)).2 (m.blockBytes b)).2.2.bytes =
      file.bytes := readRepeated_spec _ |>.2.2
  refine ⟨_, hsame, ?_⟩
  rw [if_neg hoffset, hdata]
  by_cases hv : v = 0
  · rw [if_pos hv, if_pos hv]
    rfl
  · rw [if_neg hv, if_neg hv]
    rfl

/-- The block of an event. -/
def blockOf (m : MemorizingHandlerManager) (e : BitVec 64) : Nat :=
  (e - m.eventBase).toNat / m.blockSize

/-- The value of an event in the field of its block. -/
def blockValue (m : MemorizingHandlerManager) (e : BitVec 64) : BitVec 64 :=
  e - m.eventBase - BitVec.ofNat 64 (m.blockOf e * m.blockSize) + 1

/-- The parameters of a manager for `n` blocks. -/
structure Fits (m : MemorizingHandlerManager) (n : Nat) : Prop where
  total : m.numTotalEvents = n * m.blockSize
  size_pos : 0 < m.blockSize
  bits : n * m.bitsUsed < 2 ^ 32
  events : n * m.blockSize < 2 ^ 32

/-- `is_mine`. -/
def isMine (m : MemorizingHandlerManager) (e : BitVec 64) : Bool :=
  m.eventBase ≤ e && e < m.eventBase + BitVec.ofNat 64 m.numTotalEvents

/-- An event of one of the blocks, which may go round at the end of the event ids. -/
def InRange (m : MemorizingHandlerManager) (e : BitVec 64) : Prop :=
  (e - m.eventBase).toNat < m.numTotalEvents

theorem inRange_of_isMine {e : BitVec 64} (h : m.isMine e = true) : m.InRange e := by
  obtain ⟨hlow, hhigh⟩ := Bool.and_eq_true_iff.mp h
  have hlow := BitVec.le_def.mp (of_decide_eq_true hlow)
  have hhigh := BitVec.lt_def.mp (of_decide_eq_true hhigh)
  rw [BitVec.toNat_add, BitVec.toNat_ofNat] at hhigh
  unfold InRange
  rw [BitVec.toNat_sub]
  omega

theorem InRange.lt {n : Nat} {e : BitVec 64} (hfits : m.Fits n) (h : m.InRange e) :
    (e - m.eventBase).toNat < n * m.blockSize := hfits.total ▸ h

/-- The values of a block fit in its field. -/
theorem Fits.bitsUsed {n : Nat} (hfits : m.Fits n) (hb : b < n) :
    m.bitsUsed ≤ 32 ∧ m.blockSize < 2 ^ m.bitsUsed := by
  have hn : 0 < n := Nat.lt_of_le_of_lt (Nat.zero_le b) hb
  exact (bitsUsed_spec (Nat.lt_of_le_of_lt (Nat.le_mul_of_pos_left _ hn) hfits.events)).2

theorem blockOf_lt {n : Nat} {e : BitVec 64} (hfits : m.Fits n) (h : m.InRange e) :
    m.blockOf e < n :=
  Nat.div_lt_of_lt_mul (Nat.mul_comm n m.blockSize ▸ h.lt hfits)

/-- The values of a block are those from one up to its size. -/
theorem toNat_blockValue {n : Nat} {e : BitVec 64} (hfits : m.Fits n) (h : m.InRange e) :
    (m.blockValue e).toNat = (e - m.eventBase).toNat % m.blockSize + 1 := by
  have hrange : (e - m.eventBase).toNat < 2 ^ 32 := Nat.lt_trans (h.lt hfits) hfits.events
  have hle := Nat.div_mul_le_self (e - m.eventBase).toNat m.blockSize
  have hmod := Nat.mod_add_div (e - m.eventBase).toNat m.blockSize
  rw [Nat.mul_comm m.blockSize] at hmod
  have hone : (1 : BitVec 64).toNat = 1 := rfl
  unfold blockValue blockOf
  rw [BitVec.toNat_add, BitVec.toNat_sub, BitVec.toNat_ofNat, hone]
  omega

theorem blockValue_le {n : Nat} {e : BitVec 64} (hfits : m.Fits n) (h : m.InRange e) :
    (m.blockValue e).toNat ≤ m.blockSize := by
  rw [toNat_blockValue hfits h]
  exact Nat.mod_lt _ hfits.size_pos

/-- The value of an event fits in the field of its block. -/
theorem getLsbD_blockValue {n : Nat} {e : BitVec 64} (hfits : m.Fits n) (h : m.InRange e)
    (hsize : m.blockSize < 2 ^ m.bitsUsed) {i : Nat} (hi : m.bitsUsed ≤ i) :
    (m.blockValue e).getLsbD i = false := by
  refine Nat.testBit_lt_two_pow ?_
  exact Nat.lt_of_lt_of_le (Nat.lt_of_le_of_lt (blockValue_le hfits h) hsize)
    (Nat.pow_le_pow_right Nat.two_pos hi)

/-- The word that is written has the value in the bits of the field. -/
theorem getLsbD_merge {old v : BitVec 64} {shift width : Nat} (hwidth : width < 64)
    (hv : ∀ i, width ≤ i → v.getLsbD i = false) {i : Nat} (hi : i < 64) :
    ((old &&& ~~~((((1 : BitVec 64) <<< width) - 1) <<< shift)) ||| (v <<< shift)).getLsbD i =
      if shift ≤ i ∧ i < shift + width then v.getLsbD (i - shift) else old.getLsbD i := by
  rw [BitVec.getLsbD_or, BitVec.getLsbD_and, BitVec.getLsbD_not, BitVec.getLsbD_shiftLeft,
    BitVec.getLsbD_shiftLeft, getLsbD_mask hwidth]
  by_cases hlow : i < shift
  · have hout : ¬(shift ≤ i ∧ i < shift + width) := by omega
    rw [if_neg hout]
    simp [hi, hlow]
  by_cases hhigh : i < shift + width
  · have hin : i - shift < width := by omega
    rw [if_pos ⟨Nat.le_of_not_lt hlow, hhigh⟩]
    simp [hi, hlow, hin]
  · have hout : ¬(shift ≤ i ∧ i < shift + width) := by omega
    have hin : ¬i - shift < width := by omega
    rw [if_neg hout, hv _ (by omega)]
    simp [hi, hin]

theorem length_store (n : Nat) (d : BitVec 64) : (store n d).length = n := by
  simp [store]

theorem guard_lseek (file : OpenFile) (offset : Nat) :
    (guard ((file.lseek offset).1 = offset) : Option Unit) = some () := if_pos rfl

/-- What is left in the file when an event is saved: its value in the field of its block, and all
other bits as they were. -/
theorem saveValidEventToFile_eq {n : Nat} {e : BitVec 64} (hfits : m.Fits n)
    (h : m.InRange e) :
    ∃ file', m.saveValidEventToFile host file e = some file' ∧ ∀ p, bit file'.bytes p =
      if m.blockStart (m.blockOf e) ≤ p ∧ p < m.blockStart (m.blockOf e) + m.bitsUsed then
        (m.blockValue e).getLsbD (p - m.blockStart (m.blockOf e))
      else bit file.bytes p := by
  have hrange : (e - m.eventBase).toNat < 2 ^ 32 := Nat.lt_trans (h.lt hfits) hfits.events
  have hblock : m.blockOf e * m.blockSize < 2 ^ 32 :=
    Nat.lt_of_le_of_lt (Nat.div_mul_le_self _ _) hrange
  have hnum : (e - m.eventBase).toNat / m.blockSize % 2 ^ 32 = m.blockOf e :=
    Nat.mod_eq_of_lt (Nat.lt_of_le_of_lt (Nat.div_le_self _ _) hrange)
  obtain ⟨hbits, hfield⟩ := hfits.bitsUsed (blockOf_lt hfits h)
  have hvalue : e - m.eventBase - BitVec.ofNat 64 (m.blockOf e * m.blockSize) + 1 =
      m.blockValue e := rfl
  have hguard : m.blockValue e &&& (((1 : BitVec 64) <<< m.bitsUsed) - 1) = m.blockValue e := by
    refine BitVec.eq_of_getLsbD_eq fun i hi => ?_
    rw [BitVec.getLsbD_and, getLsbD_mask (by omega)]
    by_cases hwidth : i < m.bitsUsed
    · simp [hwidth]
    · simp [getLsbD_blockValue hfits h hfield (Nat.le_of_not_lt hwidth)]
  unfold saveValidEventToFile
  dsimp only
  rw [hnum, Nat.mod_eq_of_lt hblock, getBlockFileOffset_eq hbits, hvalue]
  simp only [Option.bind_eq_bind, Option.bind_some]
  have hvalid : (guard (m.blockValue e &&& (((1 : BitVec 64) <<< m.bitsUsed) - 1) =
      m.blockValue e) : Option Unit) = some () := if_pos hguard
  rw [guard_lseek, hvalid, guard_lseek]
  refine ⟨_, rfl, fun p => ?_⟩
  have hsame := (@readRepeated_spec host (file.lseek (m.blockOffset (m.blockOf e))).2
    (m.blockBytes (m.blockOf e))).2.2
  have hshift : m.blockShift (m.blockOf e) < 8 := Nat.mod_lt _ (by decide)
  have hle := blockShift_add_le m (m.blockOf e)
  have hbytes : m.blockBytes (m.blockOf e) ≤ 8 := by
    unfold blockBytes
    omega
  rw [bit_writeRepeated, length_store, bit_store, lseek_position, lseek_bytes, hsame, lseek_bytes,
    blockStart]
  by_cases hin : 8 * m.blockOffset (m.blockOf e) ≤ p ∧
      p < 8 * (m.blockOffset (m.blockOf e) + m.blockBytes (m.blockOf e))
  · obtain ⟨i, rfl⟩ : ∃ i, p = 8 * m.blockOffset (m.blockOf e) + i :=
      ⟨p - 8 * m.blockOffset (m.blockOf e), by omega⟩
    have hi : i < 8 * m.blockBytes (m.blockOf e) := by omega
    have hword : i < 64 := by omega
    rw [if_pos hin, Nat.add_sub_cancel_left, getLsbD_merge (by omega)
      (fun j hj => getLsbD_blockValue hfits h hfield hj) hword, getLsbD_load, bit_readRepeated,
      lseek_position, lseek_bytes, Nat.add_sub_add_left]
    by_cases hfieldBit : m.blockShift (m.blockOf e) ≤ i ∧
        i < m.blockShift (m.blockOf e) + m.bitsUsed
    · rw [if_pos hfieldBit, if_pos (by omega)]
      simp [hi]
    · rw [if_neg hfieldBit, if_neg (by omega)]
      simp [hi, hword]
  · rw [if_neg hin, if_neg (by omega)]

/-! ### What is read after a sequence of saves -/

/-- The fields of two blocks have no bit in common. -/
theorem blockStart_disjoint {n b c : Nat} (hfits : m.Fits n) (hb : b < n) (hc : c < n)
    (hne : b ≠ c) :
    m.blockStart b + m.bitsUsed ≤ m.blockStart c ∨
      m.blockStart c + m.bitsUsed ≤ m.blockStart b := by
  have hless : ∀ i, i < n → i * m.bitsUsed + m.bitsUsed ≤ n * m.bitsUsed := fun i hi => by
    rw [← Nat.succ_mul]
    exact Nat.mul_le_mul_right _ hi
  have hbits := hfits.bits
  have hbn := hless b hb
  have hcn := hless c hc
  unfold blockStart blockOffset blockShift
  rcases Nat.lt_or_gt_of_ne hne with hbc | hcb
  · have hstep : b * m.bitsUsed + m.bitsUsed ≤ c * m.bitsUsed := by
      rw [← Nat.succ_mul]
      exact Nat.mul_le_mul_right _ hbc
    omega
  · have hstep : c * m.bitsUsed + m.bitsUsed ≤ b * m.bitsUsed := by
      rw [← Nat.succ_mul]
      exact Nat.mul_le_mul_right _ hcb
    omega

/-- The value of the field of a block in which this event was saved last. -/
def fieldValue (m : MemorizingHandlerManager) : Option (BitVec 64) → BitVec 64
  | none => 0
  | some e => m.blockValue e

/-- The last of these events that belongs to a block. -/
def lastOf (m : MemorizingHandlerManager) (b : Nat) (events : List (BitVec 64)) :
    Option (BitVec 64) :=
  (events.filter fun e => m.blockOf e = b).getLast?

theorem lastOf_concat (events : List (BitVec 64)) (e : BitVec 64) :
    m.lastOf b (events ++ [e]) = if m.blockOf e = b then some e else m.lastOf b events := by
  unfold lastOf
  by_cases h : m.blockOf e = b
  · simp [h]
  · simp [h]

/-- The event of a block is what is read from its field. -/
theorem event_eq {n : Nat} {e : BitVec 64} (hfits : m.Fits n) (h : m.InRange e)
    (hb : m.blockOf e = b) :
    (if m.blockValue e = 0 then 0
      else m.eventBase + BitVec.ofNat 64 (b * m.blockSize % 2 ^ 32) + (m.blockValue e - 1)) =
      e := by
  have hblock : m.blockOf e * m.blockSize < 2 ^ 32 :=
    Nat.lt_of_le_of_lt (Nat.div_mul_le_self _ _) (Nat.lt_trans (h.lt hfits) hfits.events)
  have hvalue : m.blockValue e ≠ 0 := by
    intro hzero
    have hpos := toNat_blockValue hfits h
    rw [hzero] at hpos
    exact absurd hpos (Nat.succ_ne_zero _).symm
  rw [if_neg hvalue, ← hb, Nat.mod_eq_of_lt hblock, blockValue]
  grind

/-- A field that holds a value still does after a save of an event of another block. -/
theorem Holds.save {n : Nat} {e v : BitVec 64} (hfits : m.Fits n) (h : m.InRange e) (hb : b < n)
    (hne : m.blockOf e ≠ b) {bytes : List (BitVec 8)}
    (hbytes : ∀ p, bit bytes p =
      if m.blockStart (m.blockOf e) ≤ p ∧ p < m.blockStart (m.blockOf e) + m.bitsUsed then
        (m.blockValue e).getLsbD (p - m.blockStart (m.blockOf e))
      else bit file.bytes p)
    (hholds : Holds file.bytes (m.blockStart b) m.bitsUsed v) :
    Holds bytes (m.blockStart b) m.bitsUsed v := by
  intro i
  rw [hholds i]
  by_cases hi : i < m.bitsUsed
  · have hdisjoint := blockStart_disjoint hfits (blockOf_lt hfits h) hb hne
    rw [hbytes, if_neg (by omega)]
  · simp [hi]

/-- A field after a sequence of saves. -/
theorem holds_saves {n : Nat} (hfits : m.Fits n) (hzero : ∀ x ∈ file.bytes, x = 0)
    (events : List (BitVec 64)) (hevents : ∀ e ∈ events, m.InRange e) :
    ∃ file', events.foldlM (m.saveValidEventToFile host) file = some file' ∧
      ∀ b < n,
        Holds file'.bytes (m.blockStart b) m.bitsUsed (m.fieldValue (m.lastOf b events)) := by
  induction events using List.reverseRecOn with
  | nil =>
    refine ⟨file, rfl, fun b hb i => ?_⟩
    have hbit : ∀ p, bit file.bytes p = false := fun p => bit_of_byte (byte_of_zero hzero _)
    rw [hbit]
    simp [lastOf, fieldValue]
  | append_singleton events e ih =>
    obtain ⟨file₁, hsaves, hholds⟩ := ih fun e he => hevents e (List.mem_append_left _ he)
    have he := hevents e (List.mem_append_right _ List.mem_cons_self)
    obtain ⟨file', hsave, hbytes⟩ := @saveValidEventToFile_eq host m file₁ n e hfits he
    refine ⟨file', ?_, fun b hb => ?_⟩
    · rw [List.foldlM_append, hsaves]
      simp [hsave]
    rw [lastOf_concat]
    by_cases hblock : m.blockOf e = b
    · rw [if_pos hblock]
      intro i
      rw [hbytes, hblock]
      by_cases hi : i < m.bitsUsed
      · rw [if_pos (by omega), Nat.add_sub_cancel_left]
        simp [fieldValue, hi]
      · rw [fieldValue, getLsbD_blockValue hfits he (hfits.bitsUsed hb).2 (Nat.le_of_not_lt hi)]
        simp [hi]
    · rw [if_neg hblock]
      exact (hholds b hb).save hfits he hb hblock hbytes

/-- The last event of a block is one of the events. -/
theorem mem_of_lastOf {events : List (BitVec 64)} {e : BitVec 64}
    (h : m.lastOf b events = some e) : e ∈ events ∧ m.blockOf e = b := by
  simpa using List.mem_of_getLast? h

/-- What is read of a block is the last event that was saved in it, and zero if there was none; a
save does not change what is read of another block. -/
theorem packed_storage (host : Host) (m : MemorizingHandlerManager) (n : Nat) (hfits : m.Fits n) :
    (∀ file : OpenFile, (∀ x ∈ file.bytes, x = 0) →
      ∀ events : List (BitVec 64), (∀ e ∈ events, m.InRange e) →
      ∃ file', events.foldlM (m.saveValidEventToFile host) file = some file' ∧
        ∀ b < n, ∃ last, last.bytes = file'.bytes ∧ m.getBlockFromFile host file' b =
          some ((events.filter fun e => m.blockOf e = b).getLast?.getD 0, last)) ∧
    ∀ (file : OpenFile) (e : BitVec 64), m.InRange e →
      ∃ file', m.saveValidEventToFile host file e = some file' ∧
        ∀ b < n, m.blockOf e ≠ b →
          (m.getBlockFromFile host file b).map Prod.fst =
            (m.getBlockFromFile host file' b).map Prod.fst := by
  refine ⟨fun file hzero events hevents => ?_, fun file e he => ?_⟩
  · obtain ⟨file', hsaves, hholds⟩ := holds_saves hfits hzero events hevents
    refine ⟨file', hsaves, fun b hb => ?_⟩
    obtain ⟨last, hlast, hget⟩ := getBlockFromFile_eq (hfits.bitsUsed hb).1 (hholds b hb)
    refine ⟨last, hlast, hget.trans ?_⟩
    have hfilter : (events.filter fun e => m.blockOf e = b).getLast? = m.lastOf b events := rfl
    rw [hfilter]
    cases hlastOf : m.lastOf b events with
    | none => rfl
    | some e =>
      obtain ⟨hmem, hblock⟩ := mem_of_lastOf hlastOf
      rw [fieldValue, event_eq hfits (hevents e hmem) hblock]
      rfl
  · obtain ⟨file', hsave, hbytes⟩ := saveValidEventToFile_eq hfits he
    refine ⟨file', hsave, fun b hb hne => ?_⟩
    have hbits := (hfits.bitsUsed hb).1
    have hbefore := holds_read host hbits file b
    obtain ⟨last, -, hget⟩ := @getBlockFromFile_eq host m file b hbits _ hbefore
    obtain ⟨last', -, hget'⟩ :=
      @getBlockFromFile_eq host m file' b hbits _ (hbefore.save hfits he hb hne hbytes)
    rw [hget, hget']
    rfl

/-- A host that transfers one byte in a call. -/
def sampleHost : Host where
  readCount file n := min (min n 1) (file.bytes.length - file.position)
  writeCount _ n := min n 1
  readCount_le file n := by omega
  readCount_pos file n hn hmore := by omega
  writeCount_le _ n := by omega
  writeCount_pos _ n hn := by omega

/-- A manager of 64 blocks of two events. -/
def sampleManager : MemorizingHandlerManager := ⟨0x050101011422FF00, 128, 2, 0⟩

theorem sample_packed : ∃ file', ([0x050101011422FF30, 0x050101011422FF05,
    0x050101011422FF31].foldlM (sampleManager.saveValidEventToFile sampleHost) ⟨[], 0, 0⟩) =
      some file' ∧
    ∃ last, sampleManager.getBlockFromFile sampleHost file' 24 =
      some (0x050101011422FF31, last) := by
  have hfits : sampleManager.Fits 64 := ⟨by decide, by decide, by decide, by decide⟩
  obtain ⟨file', hsaves, hread⟩ := (packed_storage sampleHost sampleManager 64 hfits).1 ⟨[], 0, 0⟩
    (by simp) [0x050101011422FF30, 0x050101011422FF05, 0x050101011422FF31]
    (by simp [InRange, sampleManager])
  obtain ⟨last, -, hget⟩ := hread 24 (by decide)
  exact ⟨file', hsaves, last, hget⟩

end MemorizingHandlerManager

end OpenmrnCue.Custom
