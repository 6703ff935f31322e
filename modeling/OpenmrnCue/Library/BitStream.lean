import Mathlib.Data.List.Basic

/-! Bytes as a stream of bits, the low bits of each byte first.  Past its end a stream has zeros. -/

namespace BitStream

variable {w : Nat}

/-- A byte of the stream. -/
def byte (bytes : List (BitVec 8)) (i : Nat) : BitVec 8 := bytes.getD i 0

/-- A bit of the stream. -/
def bit (bytes : List (BitVec 8)) (p : Nat) : Bool := (byte bytes (p / 8)).getLsbD (p % 8)

/-- The word that the bytes are in memory, the low byte first. -/
def load (w : Nat) : List (BitVec 8) → BitVec w
  | [] => 0
  | b :: bytes => b.setWidth w ||| (load w bytes <<< 8)

/-- The first `n` bytes of a word in memory. -/
def store (n : Nat) (d : BitVec w) : List (BitVec 8) :=
  (List.range n).map fun i => (d >>> (8 * i)).setWidth 8

/-- The bytes with others over them from a position on; a gap is filled with zeros. -/
def splice (bytes : List (BitVec 8)) (position : Nat) (chunk : List (BitVec 8)) :
    List (BitVec 8) :=
  (List.range (max bytes.length (position + chunk.length))).map fun i =>
    if position ≤ i ∧ i < position + chunk.length then byte chunk (i - position)
    else byte bytes i

theorem bit_of_byte {bytes : List (BitVec 8)} {p : Nat} (h : byte bytes (p / 8) = 0) :
    bit bytes p = false := by
  rw [bit, h]
  simp

theorem byte_of_length_le {bytes : List (BitVec 8)} {i : Nat} (h : bytes.length ≤ i) :
    byte bytes i = 0 := by
  simp [byte, h]

theorem byte_of_zero {bytes : List (BitVec 8)} (h : ∀ x ∈ bytes, x = 0) (i : Nat) :
    byte bytes i = 0 := by
  by_cases hi : i < bytes.length
  · simpa [byte, hi] using h _ (List.getElem_mem hi)
  · exact byte_of_length_le (Nat.le_of_not_lt hi)

theorem byte_cons_zero (b : BitVec 8) (bytes : List (BitVec 8)) : byte (b :: bytes) 0 = b := rfl

theorem byte_cons_succ (b : BitVec 8) (bytes : List (BitVec 8)) (i : Nat) :
    byte (b :: bytes) (i + 1) = byte bytes i := rfl

theorem getLsbD_load (bytes : List (BitVec 8)) (i : Nat) :
    (load w bytes).getLsbD i = (decide (i < w) && bit bytes i) := by
  induction bytes generalizing i with
  | nil => simp [load, bit, byte]
  | cons b bytes ih =>
    rw [load, BitVec.getLsbD_or, BitVec.getLsbD_setWidth, BitVec.getLsbD_shiftLeft, ih]
    by_cases hfirst : i < 8
    · have hzero : i / 8 = 0 := Nat.div_eq_of_lt hfirst
      simp [bit, hzero, byte_cons_zero, Nat.mod_eq_of_lt hfirst, hfirst]
    · obtain ⟨j, rfl⟩ : ∃ j, i = j + 8 := ⟨i - 8, by omega⟩
      have hbit : bit (b :: bytes) (j + 8) = bit bytes j := by
        rw [bit, Nat.add_div_right j (Nat.succ_pos 7), byte_cons_succ, Nat.add_mod_right]
        rfl
      have hhigh : b.getLsbD (j + 8) = false := BitVec.getLsbD_of_ge b _ (Nat.le_add_left 8 j)
      rw [hbit, hhigh, Nat.add_sub_cancel]
      by_cases hw : j + 8 < w
      · have hj : j < w := by omega
        simp [hw, hj]
      · simp [hw]

theorem byte_append (bytes rest : List (BitVec 8)) (i : Nat) :
    byte (bytes ++ rest) i = if i < bytes.length then byte bytes i
      else byte rest (i - bytes.length) := by
  by_cases h : i < bytes.length
  · simp [byte, h, List.getElem?_append_left h]
  · simp [byte, h, List.getElem?_append_right (Nat.le_of_not_lt h)]

theorem byte_drop (n : Nat) (bytes : List (BitVec 8)) (i : Nat) :
    byte (bytes.drop n) i = byte bytes (n + i) := by
  simp [byte]

theorem byte_take {n i : Nat} (bytes : List (BitVec 8)) (h : i < n) :
    byte (bytes.take n) i = byte bytes i := by
  simp [byte, List.getElem?_take_of_lt h]

theorem byte_replicate_zero (n i : Nat) : byte (List.replicate n 0) i = 0 := by
  by_cases h : i < n
  · simp [byte, h]
  · exact byte_of_length_le (by simpa using h)

theorem byte_map_range (n : Nat) (f : Nat → BitVec 8) (i : Nat) :
    byte ((List.range n).map f) i = if i < n then f i else 0 := by
  by_cases h : i < n
  · simp [byte, h]
  · simp [byte, h]

theorem bit_store (n : Nat) (d : BitVec w) (p : Nat) :
    bit (store n d) p = (decide (p < 8 * n) && d.getLsbD p) := by
  rw [bit, store, byte_map_range]
  by_cases h : p / 8 < n
  · have hp : p < 8 * n := by omega
    have hsum : 8 * (p / 8) + p % 8 = p := Nat.div_add_mod p 8
    rw [if_pos h, BitVec.getLsbD_setWidth, BitVec.getLsbD_ushiftRight, hsum]
    simp [hp, Nat.mod_lt p (Nat.succ_pos 7)]
  · have hp : ¬p < 8 * n := by omega
    rw [if_neg h]
    simp [hp]

theorem byte_splice (bytes chunk : List (BitVec 8)) (position i : Nat) :
    byte (splice bytes position chunk) i =
      if position ≤ i ∧ i < position + chunk.length then byte chunk (i - position)
      else byte bytes i := by
  rw [splice, byte_map_range]
  by_cases h : i < max bytes.length (position + chunk.length)
  · rw [if_pos h]
  · have hout : ¬(position ≤ i ∧ i < position + chunk.length) := by omega
    rw [if_neg h, if_neg hout, byte_of_length_le (by omega)]

end BitStream
