import OpenmrnCue.Library.BitStream

/-! A file that a program has open.  A call that reads or writes may transfer less than it was asked
for; the host decides how much, in every call anew. -/

/-- The bytes of the file, the position in it, and the number of calls so far. -/
structure OpenFile where
  bytes : List (BitVec 8)
  position : Nat
  calls : Nat

namespace OpenFile

open BitStream

/-- How many bytes a call transfers: none at the end of the file only, when it reads. -/
structure Host where
  readCount : OpenFile → Nat → Nat
  writeCount : OpenFile → Nat → Nat
  readCount_le (file : OpenFile) (n : Nat) :
    readCount file n ≤ n ∧ readCount file n ≤ file.bytes.length - file.position
  readCount_pos (file : OpenFile) (n : Nat) :
    0 < n → file.position < file.bytes.length → 0 < readCount file n
  writeCount_le (file : OpenFile) (n : Nat) : writeCount file n ≤ n
  writeCount_pos (file : OpenFile) (n : Nat) : 0 < n → 0 < writeCount file n

variable (host : Host)

/-- `lseek` with `SEEK_SET`; the result is the new position. -/
def lseek (file : OpenFile) (offset : Nat) : Nat × OpenFile :=
  (offset, { file with position := offset, calls := file.calls + 1 })

/-- `read`: the bytes that were read, and the file after it. -/
def read (file : OpenFile) (n : Nat) : List (BitVec 8) × OpenFile :=
  ((file.bytes.drop file.position).take (host.readCount file n),
    { file with position := file.position + host.readCount file n, calls := file.calls + 1 })

/-- `write`: how many bytes were written, and the file after it. -/
def write (file : OpenFile) (data : List (BitVec 8)) : Nat × OpenFile :=
  (host.writeCount file data.length,
    { bytes := splice file.bytes file.position (data.take (host.writeCount file data.length))
      position := file.position + host.writeCount file data.length
      calls := file.calls + 1 })

variable {host}

@[simp] theorem lseek_fst (file : OpenFile) (offset : Nat) : (file.lseek offset).1 = offset := rfl

@[simp] theorem lseek_position (file : OpenFile) (offset : Nat) :
    (file.lseek offset).2.position = offset := rfl

@[simp] theorem lseek_bytes (file : OpenFile) (offset : Nat) :
    (file.lseek offset).2.bytes = file.bytes := rfl

theorem length_read (file : OpenFile) (n : Nat) :
    (read host file n).1.length = host.readCount file n := by
  have hle := (host.readCount_le file n).2
  simp [read, hle]

theorem byte_read {file : OpenFile} {n i : Nat} (h : i < host.readCount file n) :
    byte (read host file n).1 i = byte file.bytes (file.position + i) := by
  rw [read, byte_take _ h, byte_drop]

/-- A call that reads nothing has come to the end of the file. -/
theorem length_le_of_readCount {file : OpenFile} {n : Nat} (hn : 0 < n)
    (h : host.readCount file n = 0) : file.bytes.length ≤ file.position := by
  by_contra hmore
  exact Nat.ne_of_gt (host.readCount_pos file n hn (Nat.lt_of_not_le hmore)) h

end OpenFile
